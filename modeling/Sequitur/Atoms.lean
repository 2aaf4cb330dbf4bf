/-
The atoms of an argument: the names that occur anywhere in it, each once, in ascending order of code points (which is
also the order of their UTF-8 bytes). The place of an atom in this list is its bit in the enumeration of assignments.

The atoms of a formula are put together from those of its parts: `union` joins two ascending lists in one pass. Main
statements: `mem_atoms` and `pairwise_atoms`, which together fix the list.
-/
import Sequitur.Formula

namespace Sequitur

namespace Atoms

/-- puts a name before what `goOn` makes of the second list, but after the names there that are less -/
def before (a : String) (goOn : List String → List String) : List String → List String
  | [] => a :: goOn []
  | b :: bs =>
    if a = b then a :: goOn bs else if a < b then a :: goOn (b :: bs) else b :: before a goOn bs

/-- two ascending lists as one -/
def union : List String → List String → List String
  | [] => fun bs => bs
  | a :: as => before a (union as)

theorem mem_before {x a : String} {goOn : List String → List String} {as : List String}
    (h : ∀ bs, x ∈ goOn bs ↔ x ∈ as ∨ x ∈ bs) (bs : List String) :
    x ∈ before a goOn bs ↔ x = a ∨ x ∈ as ∨ x ∈ bs := by
  induction bs with
  | nil => simp [before, h]
  | cons b bs ih =>
    unfold before
    split
    · grind
    · split <;> grind

@[simp] theorem mem_union {x : String} {as bs : List String} : x ∈ union as bs ↔ x ∈ as ∨ x ∈ bs := by
  induction as generalizing bs with
  | nil => simp [union]
  | cons a as ih =>
    rw [union, mem_before (fun _ => ih), List.mem_cons, or_assoc]

theorem pairwise_before {a : String} {goOn : List String → List String} {as bs : List String}
    (h : ∀ x bs, x ∈ goOn bs ↔ x ∈ as ∨ x ∈ bs)
    (hp : ∀ bs : List String, bs.Pairwise (· < ·) → (goOn bs).Pairwise (· < ·))
    (ha : ∀ x ∈ as, a < x) (hb : bs.Pairwise (· < ·)) : (before a goOn bs).Pairwise (· < ·) := by
  induction bs with
  | nil => exact List.pairwise_cons.2 ⟨fun x hx => ha x (by simpa [h] using hx), hp [] .nil⟩
  | cons b bs ih =>
    obtain ⟨hlt, hbs⟩ := List.pairwise_cons.1 hb
    unfold before
    split
    · rename_i hab
      refine List.pairwise_cons.2 ⟨fun x hx => ?_, hp bs hbs⟩
      rcases (h x bs).1 hx with hx | hx
      · exact ha x hx
      · exact hab ▸ hlt x hx
    · rename_i hne
      split
      · rename_i hab
        refine List.pairwise_cons.2 ⟨fun x hx => ?_, hp _ hb⟩
        rcases (h x _).1 hx with hx | hx
        · exact ha x hx
        · rcases List.mem_cons.1 hx with rfl | hx
          · exact hab
          · exact String.lt_trans hab (hlt x hx)
      · rename_i hge
        have hba : b < a := Std.lt_of_le_of_ne (String.not_lt.1 hge) (Ne.symm hne)
        refine List.pairwise_cons.2 ⟨fun x hx => ?_, ih hbs⟩
        rcases (mem_before (h x) bs).1 hx with rfl | hx | hx
        · exact hba
        · exact String.lt_trans hba (ha x hx)
        · exact hlt x hx

theorem pairwise_union {as bs : List String} (ha : as.Pairwise (· < ·)) (hb : bs.Pairwise (· < ·)) :
    (union as bs).Pairwise (· < ·) := by
  induction as generalizing bs with
  | nil => exact hb
  | cons a as ih =>
    obtain ⟨hlt, has⟩ := List.pairwise_cons.1 ha
    exact pairwise_before (fun _ _ => mem_union) (fun _ h => ih has h) hlt hb

end Atoms

/-- the atoms of one formula -/
def Formula.atoms : Formula → List String
  | var a => [a]
  | not f => f.atoms
  | bin _ l r => Atoms.union l.atoms r.atoms

/-- the atoms of some formulas -/
def atoms (fs : List Formula) : List String := fs.foldr (fun f found => Atoms.union f.atoms found) []

@[simp] theorem Formula.mem_atoms {x : String} {f : Formula} : x ∈ f.atoms ↔ x ∈ f.occurrences := by
  induction f with
  | var a => rfl
  | not f ih => exact ih
  | bin op l r ihl ihr => simp [Formula.atoms, Formula.occurrences, ihl, ihr]

theorem Formula.pairwise_atoms (f : Formula) : f.atoms.Pairwise (· < ·) := by
  induction f with
  | var a => exact List.pairwise_singleton _ a
  | not f ih => exact ih
  | bin op l r ihl ihr => exact Atoms.pairwise_union ihl ihr

theorem mem_atoms {x : String} {fs : List Formula} : x ∈ atoms fs ↔ ∃ f ∈ fs, x ∈ f.occurrences := by
  induction fs with
  | nil => simp [atoms]
  | cons f fs ih =>
    rw [atoms, List.foldr_cons, ← atoms, Atoms.mem_union, ih]
    simp

theorem pairwise_atoms (fs : List Formula) : (atoms fs).Pairwise (· < ·) := by
  induction fs with
  | nil => exact .nil
  | cons f fs ih => exact Atoms.pairwise_union f.pairwise_atoms ih

end Sequitur
