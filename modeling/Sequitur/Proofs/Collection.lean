/-
The names in formulas, collected.

One way to collect them is to go through the formulas one by one, each from left to right, and to put every variable into
one set that grows. Atoms are put together differently, from the ascending lists of the parts; the list is the one that the
set comes to when it is put in order, and so the formulas matter as a set only. What the order is can be said without the
names: it is the order of their bytes.

- `mem_collected` and `collected_append`: what the set holds;
- `atoms_eq_sort`: the atoms are the set in ascending order;
- `atoms_collect`: the order, the members, and what becomes of them when formulas are moved, repeated or added.
-/
import Sequitur.Proofs.ByteOrder
import Sequitur.Proofs.Checked

namespace Sequitur

/-- adds the names in a formula to those found before, from left to right -/
def Formula.collect (found : Finset String) : Formula → Finset String
  | var a => insert a found
  | not f => f.collect found
  | bin _ l r => r.collect (l.collect found)

/-- the names in some formulas, each formula gone through in turn -/
def collected (fs : List Formula) : Finset String := fs.foldl Formula.collect ∅

variable {fs gs : List Formula} {x : String} {found : Finset String}

theorem Formula.mem_collect {f : Formula} : x ∈ f.collect found ↔ x ∈ found ∨ x ∈ f.occurrences := by
  induction f generalizing found with
  | var a => rw [collect, Finset.mem_insert, occurrences, List.mem_singleton, or_comm]
  | not f ih => exact ih
  | bin op l r ihl ihr => rw [collect, ihr, ihl, occurrences, List.mem_append, or_assoc]

/-- the set grows by what occurs in each formula -/
theorem mem_foldl_collect : x ∈ fs.foldl Formula.collect found ↔ x ∈ found ∨ ∃ f ∈ fs, x ∈ f.occurrences := by
  induction fs generalizing found with
  | nil => simp
  | cons f fs ih => rw [List.foldl_cons, ih, Formula.mem_collect, or_assoc, List.exists_mem_cons_iff]

theorem mem_collected : x ∈ collected fs ↔ ∃ f ∈ fs, x ∈ f.occurrences := by
  simp [collected, mem_foldl_collect]

/-- what further formulas add is what they hold by themselves -/
theorem collected_append : collected (fs ++ gs) = collected fs ∪ collected gs := by
  ext x
  rw [Finset.mem_union, mem_collected, mem_collected, mem_collected]
  simp only [List.mem_append, or_and_right, exists_or]

theorem toFinset_atoms (fs : List Formula) : (atoms fs).toFinset = collected fs := by
  ext x
  rw [List.mem_toFinset, mem_atoms, mem_collected]

/-- the atoms are the names in ascending order -/
theorem atoms_eq_sort (fs : List Formula) : atoms fs = (collected fs).sort := by
  have hle : (atoms fs).Pairwise (· ≤ ·) := (pairwise_atoms fs).imp le_of_lt
  rw [← toFinset_atoms]
  exact ((List.toFinset_sort (· ≤ ·) (nodup_atoms fs)).2 hle).symm

/-- **Atoms are collected exactly.** They are what a growing set of names comes to while the formulas are gone through: in
strictly ascending order of their bytes, those names and no others that occur somewhere in one of the formulas. So they
depend neither on the order of the formulas nor on repetitions, and the atoms of two lists of formulas together are the
union of the atoms of both, in order. -/
theorem atoms_collect (fs : List Formula) :
    atoms fs = (fs.foldl Formula.collect ∅).sort ∧
    (atoms fs).Pairwise (fun a b => utf8 a < utf8 b) ∧
    (∀ a, a ∈ atoms fs ↔ ∃ f ∈ fs, a ∈ f.occurrences) ∧
    (∀ gs, (∀ f, f ∈ gs ↔ f ∈ fs) → atoms gs = atoms fs) ∧
    ∀ gs, atoms (fs ++ gs) = ((atoms fs).toFinset ∪ (atoms gs).toFinset).sort := by
  refine ⟨atoms_eq_sort fs, ?_, fun _ => mem_atoms, ?_, ?_⟩
  · exact (pairwise_atoms fs).imp utf8_lt_iff.2
  · intro gs hsame
    apply atoms_congr
    intro a
    simp only [hsame]
  · intro gs
    rw [atoms_eq_sort, collected_append, toFinset_atoms, toFinset_atoms]

/-- names of one byte, of three and of four; the last two would change places if they were compared by units of 16 bits -/
def wideNames : List Formula := [.var "𝔸", .bin .and (.var "Z") (.var "ﬀ")]

/-- the atoms stay the same when the formulas are moved and repeated -/
theorem atoms_collect_wideNames :
    (∀ f, f ∈ wideNames.reverse ++ wideNames ↔ f ∈ wideNames) ∧ atoms wideNames = ["Z", "ﬀ", "𝔸"] ∧
      atoms (wideNames.reverse ++ wideNames) = atoms wideNames := by
  have hsame : ∀ f, f ∈ wideNames.reverse ++ wideNames ↔ f ∈ wideNames := by simp
  exact ⟨hsame, by decide, (atoms_collect wideNames).2.2.2.1 _ hsame⟩

end Sequitur
