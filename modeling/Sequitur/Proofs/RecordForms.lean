/-
The forms of a saved analysis.

An analysis is written in one form and read in many. A record has its fields in any order and among fields that nobody
asks for, or is an array of the values alone; a conclusion that is not there is null or missing; a status is a text or an
object; and the time is told at any offset. All these are told exactly here: the forms that are read are those and no
others. Whatever form an analysis came in, writing it and reading it again changes nothing, so the line that is sealed stays
the same, and the seal fits afterwards exactly if it did before.

- `Json.record?_eq_some_iff`: a record is read from fields in any order and among others, and from the items of an array;
- `Analysis.ofJson?_eq_some_iff`: the JSON values that an analysis is read from;
- `Analysis.reads_back`: an analysis is read back as it was written, in whatever form it was first read.
-/
import Mathlib
import Sequitur.Archive.RoundTrip
import Sequitur.Proofs.Zones

namespace Sequitur

namespace Json

/-! ## Records -/

/-- the fields that are there, with their names -/
def present (names : List String) (values : List (Option Json)) : List (String × Json) :=
  (names.zip values).flatMap fun p => (p.2.map (p.1, ·)).toList

/-- a JSON value holds a record with these values of its fields: an object has the fields in any order and may have
others, an array has one item for each field -/
inductive IsRecord (names : List String) (values : List (Option Json)) : Json → Prop
  | obj {given : List (String × Json)} (h : (given.filter fun f => names.contains f.1).Perm (present names values)) :
    IsRecord names values (obj given)
  | arr {items : List Json} (h : values = items.map some) : IsRecord names values (arr items)

section

variable {names : List String} {values : List (Option Json)} {given : List (String × Json)} {n : String} {o : Option Json}

theorem present_cons : present (n :: names) (o :: values) = (o.map (n, ·)).toList ++ present names values := rfl

theorem fst_mem_of_mem_present {f : String × Json} (h : f ∈ present names values) : f.1 ∈ names := by
  obtain ⟨p, hp, hf⟩ := List.mem_flatMap.1 h
  obtain ⟨v, -, rfl⟩ := Option.map_eq_some_iff.1 (Option.mem_toList.1 hf)
  exact (List.of_mem_zip hp).1

/-- a name at most once, with this value if it is there -/
theorem filter_eq_toList_iff : given.filter (fun f => f.1 == n) = (o.map (n, ·)).toList ↔
    (given.filter fun f => f.1 == n).length ≤ 1 ∧ given.lookup n = o := by
  induction given with
  | nil => cases o <;> simp
  | cons f given ih =>
    obtain ⟨k, v⟩ := f
    by_cases hk : k = n
    · subst hk
      rw [List.filter_cons_of_pos (by simp), List.lookup_cons_self]
      cases o with
      | none => simp
      | some w =>
        have hnone : given.filter (fun f => f.1 == k) = [] ↔ (given.filter fun f => f.1 == k).length + 1 ≤ 1 := by
          rw [← List.length_eq_zero_iff]
          omega
        simp only [Option.map_some, Option.toList_some, List.cons.injEq, Prod.mk.injEq, true_and, List.length_cons,
          hnone, Option.some.injEq, and_comm]
    · rw [List.filter_cons_of_neg (by simpa using hk), ih, List.lookup_cons, beq_false_of_ne (Ne.symm hk)]

/-- a name that is asked for can be taken out of fields in any order -/
theorem filter_perm_append (hn : n ∉ names) : (given.filter fun f => (n :: names).contains f.1).Perm
    ((given.filter fun f => f.1 == n) ++ given.filter fun f => names.contains f.1) := by
  have hsplit := List.filter_append_perm (fun f : String × Json => f.1 == n)
    (given.filter fun f => (n :: names).contains f.1)
  rw [List.filter_filter, List.filter_filter] at hsplit
  refine hsplit.symm.trans (.of_eq ?_)
  congr 1
  · refine List.filter_congr fun f _ => ?_
    by_cases hf : f.1 = n <;> simp [hf]
  · refine List.filter_congr fun f _ => ?_
    by_cases hf : f.1 = n
    · simp [hf, hn]
    · simp [hf]

/-- fields hold the values of some names exactly if they hold that of the first and those of the others -/
theorem perm_present_cons_iff (hn : n ∉ names) :
    (given.filter fun f => (n :: names).contains f.1).Perm (present (n :: names) (o :: values)) ↔
      given.filter (fun f => f.1 == n) = (o.map (n, ·)).toList ∧
        (given.filter fun f => names.contains f.1).Perm (present names values) := by
  rw [(filter_perm_append hn).congr_left, present_cons]
  constructor
  · intro h
    have hother {l : List (String × Json)} (hl : ∀ f ∈ l, f.1 ∈ names) : l.filter (fun f => f.1 == n) = [] := by
      refine List.filter_eq_nil_iff.2 fun f hf hfn => hn ?_
      rw [← eq_of_beq hfn]
      exact hl f hf
    have hfirst := h.filter fun f => f.1 == n
    rw [List.filter_append, List.filter_append, hother (fun f => fst_mem_of_mem_present), List.filter_filter,
      hother (l := given.filter _) (fun f hf => by simpa using (List.mem_filter.1 hf).2), List.append_nil,
      List.append_nil] at hfirst
    have heq : given.filter (fun f => f.1 == n) = (o.map (n, ·)).toList := by
      cases o with
      | none => simpa using hfirst
      | some v => simpa using hfirst
    rw [heq, List.perm_append_left_iff] at h
    exact ⟨heq, h⟩
  · rintro ⟨heq, h⟩
    rw [heq]
    exact h.append_left _

theorem record?_obj_iff (hn : names.Nodup) (hl : values.length = names.length) :
    (obj given).record? names = some values ↔
      (given.filter fun f => names.contains f.1).Perm (present names values) := by
  have hread : (obj given).record? names = some values ↔
      (∀ n ∈ names, (given.filter fun f => f.1 == n).length ≤ 1) ∧ (names.map fun n => given.lookup n) = values := by
    simp [record?]
  rw [hread]
  clear hread
  induction names generalizing values with
  | nil => simp [present, List.eq_nil_of_length_eq_zero hl]
  | cons n names ih =>
    cases values with
    | nil => simp at hl
    | cons o values =>
      have hnames := List.nodup_cons.1 hn
      rw [perm_present_cons_iff hnames.1, filter_eq_toList_iff, List.forall_mem_cons, List.map_cons, List.cons.injEq,
        and_and_and_comm]
      exact and_congr_right fun _ => ih hnames.2 (Nat.succ.inj hl)

theorem record?_eq_some_iff (hn : names.Nodup) (hl : values.length = names.length) {v : Json} :
    v.record? names = some values ↔ v.IsRecord names values := by
  constructor
  · intro h
    cases v with
    | obj given => exact .obj ((record?_obj_iff hn hl).1 h)
    | arr items =>
      simp only [record?, Option.ite_none_right_eq_some, Option.some.injEq] at h
      exact .arr h.2.symm
    | _ => simp [record?] at h
  · rintro (h | h)
    · exact (record?_obj_iff hn hl).2 h
    · subst h
      rw [List.length_map] at hl
      simp [record?, hl]

/-! ## Values of fields -/

variable {v : Json} {f : Json → Option α} {g : α → Json}

theorem nat64?_eq_some_iff {k : UInt64} : v.nat64? = some k ↔ v = nat k.toNat := by
  constructor
  · intro h
    cases v with
    | nat m =>
      simp only [nat64?, Option.ite_none_right_eq_some, Option.some.injEq] at h
      rw [← h.2, UInt64.toNat_ofNat_of_lt' h.1]
    | _ => cases h
  · rintro rfl
    exact nat64?_toNat k

theorem bool?_eq_some_iff {b : Bool} : v.bool? = some b ↔ v = bool b := by
  cases v <;> simp [bool?]

theorem str?_eq_some_iff {s : String} : v.str? = some s ↔ v = str s := by
  cases v <;> simp [str?]

theorem list?_eq_some_iff (hf : ∀ v a, f v = some a ↔ v = g a) {l : List α} :
    list? f v = some l ↔ v = arr (l.map g) := by
  constructor
  · intro h
    cases v with
    | arr items =>
      simp only [list?] at h
      induction items generalizing l with
      | nil =>
        cases h
        rfl
      | cons item items ih =>
        rw [List.mapM_cons] at h
        obtain ⟨a, ha, h⟩ := Option.bind_eq_some_iff.1 h
        obtain ⟨rest, hrest, h⟩ := Option.bind_eq_some_iff.1 h
        cases h
        rw [(hf item a).1 ha, List.map_cons, ← arr.inj (ih hrest)]
    | _ => cases h
  · rintro rfl
    exact list?_map (fun a => (hf (g a) a).2 rfl) l

theorem list?_str_eq_some_iff {l : List String} : list? str? v = some l ↔ v = strs l :=
  list?_eq_some_iff (g := str) fun _ _ => str?_eq_some_iff

theorem required_eq_some_iff {field : Option Json} {a : α} :
    required f field = some a ↔ ∃ v, field = some v ∧ f v = some a := Option.bind_eq_some_iff

/-- a text that need not be there is written as itself, or as null, or left out -/
theorem optional_str_eq_some_iff {field : Option Json} {o : Option String} :
    optional str? field = some o ↔ field = some (ofOption str o) ∨ (field = none ∧ o = none) := by
  cases field with
  | none => simp [optional, eq_comm]
  | some v =>
    cases o with
    | none => cases v <;> simp [optional, str?, ofOption]
    | some s => cases v <;> simp [optional, str?, ofOption]

end

end Json

theorem Status.ofCode?_eq_some_iff {code : String} {s : Status} : ofCode? code = some s ↔ code = s.code := by
  constructor
  · intro h
    have hcode : (s.code == code) = true := List.find?_some (p := fun s : Status => s.code == code) h
    exact (eq_of_beq hcode).symm
  · rintro rfl
    exact s.ofCode?_code

namespace Analysis

variable {a : Analysis} {s : Status} {t : Instant} {v : Json}

theorem status?_eq_some_iff : status? v = some s ↔ v = .str s.code ∨ v = .obj [(s.code, .null)] := by
  constructor
  · intro h
    unfold status? at h
    split at h
    · exact .inl (congrArg _ (Status.ofCode?_eq_some_iff.1 h))
    · rw [Status.ofCode?_eq_some_iff.1 h]
      exact .inr rfl
    · cases h
  · rintro (rfl | rfl)
    · exact s.ofCode?_code
    · exact s.ofCode?_code

theorem instant?_eq_some_iff : instant? v = some t ↔ ∃ written, v = .str written ∧ Instant.read? written = some t := by
  rw [instant?, Option.bind_eq_some_iff]
  simp only [Json.str?_eq_some_iff]

/-! ## Analyses -/

/-- the values of the fields in the order of their names, with the time, the status and the conclusion in some form -/
def valuesWith (a : Analysis) (created : String) (status : Json) (conclusion : Option Json) : List (Option Json) :=
  [some (.nat a.id.toNat), some (.str created), some (.strs a.argument.premises), conclusion,
    some (.bool a.summary.isValid), some status, some (.strs a.summary.atoms),
    some (.nat a.summary.counterexampleCount.toNat), some (.str a.summary.explanation), some (.str a.sealText)]

/-- the forms of an analysis: its time is told in any way, its status is a text or an object, and a conclusion that is not
there is null or missing -/
inductive StandsIn (a : Analysis) (v : Json) : Prop
  | intro {created : String} {status : Json} {conclusion : Option Json}
    (hcreated : Instant.read? created = some a.createdAt)
    (hstatus : status = .str a.summary.status.code ∨ status = .obj [(a.summary.status.code, .null)])
    (hconclusion : conclusion = some (.ofOption .str a.argument.conclusion) ∨
      (conclusion = none ∧ a.argument.conclusion = none))
    (hrecord : v.IsRecord fieldNames (a.valuesWith created status conclusion))

theorem ofJson?_eq_some_iff : ofJson? v = some a ↔ a.StandsIn v := by
  have hnames : fieldNames.Nodup := by decide
  constructor
  · intro h
    unfold ofJson? at h
    split at h
    · rename_i hrecord
      simp only [Option.bind_eq_bind, Option.bind_eq_some_iff, Json.required_eq_some_iff, Json.nat64?_eq_some_iff,
        instant?_eq_some_iff, Json.list?_str_eq_some_iff, Json.optional_str_eq_some_iff, Json.bool?_eq_some_iff,
        status?_eq_some_iff, Json.str?_eq_some_iff, Option.pure_def, Option.some.injEq] at h
      obtain ⟨id, ⟨_, rfl, rfl⟩, created, ⟨_, rfl, written, rfl, hcreated⟩, premises, ⟨_, rfl, rfl⟩, conclusion,
        hconclusion, isValid, ⟨_, rfl, rfl⟩, status, ⟨_, rfl, hstatus⟩, atoms, ⟨_, rfl, rfl⟩, count, ⟨_, rfl, rfl⟩,
        explanation, ⟨_, rfl, rfl⟩, sealText, ⟨_, rfl, rfl⟩, rfl⟩ := h
      exact .intro hcreated hstatus hconclusion ((Json.record?_eq_some_iff hnames rfl).1 hrecord)
    · cases h
  · rintro ⟨hcreated, hstatus, hconclusion, hrecord⟩
    rw [ofJson?, (Json.record?_eq_some_iff hnames rfl).2 hrecord]
    simp [valuesWith, Json.required, Json.nat64?_toNat, instant?_eq_some_iff.2 ⟨_, rfl, hcreated⟩, Json.list?_strs,
      Json.optional_str_eq_some_iff.2 hconclusion, Json.bool?, status?_eq_some_iff.2 hstatus, Json.str?]

/-- the texts that an analysis is read from -/
theorem read?_eq_some_iff {text : String} : read? text = some a ↔ ∃ v, Json.read? text = some v ∧ a.StandsIn v := by
  simp only [read?, Option.bind_eq_some_iff, ofJson?_eq_some_iff]

/-- writing an analysis and reading it again changes nothing, whatever form it was first read from and whatever clock its time
was taken from -/
theorem reads_back :
    (∀ a : Analysis, read? a.report.render = some a ∧ (read? a.report.render).map sealInfo = some a.sealInfo ∧
      (read? a.report.render).map isSealed = some a.isSealed) ∧
    (∀ (text : String) (a : Analysis), read? text = some a → read? a.report.render = some a) ∧
    (∀ (text : String) (a : Analysis), read? text = some a ↔ ∃ v, Json.read? text = some v ∧ a.StandsIn v) ∧
    ∀ (t u : Instant) (ahead : Int), ahead.natAbs < 1440 → t.minus? (-ahead) = some u →
      Instant.read? (u.renderAt ahead) = some t := by
  refine ⟨fun a => ?_, fun _ a _ => a.read?_render, fun _ _ => read?_eq_some_iff, ?_⟩
  · rw [a.read?_render]
    exact ⟨rfl, rfl, rfl⟩
  · intro t u ahead hahead hu
    exact Instant.read?_renderAt_of_local hahead hu

/-- what a clock five and a half hours ahead of UTC shows when 1970 begins in UTC -/
def aheadOfUtc : Instant :=
  { Instant.epoch with hour := 5, minute := 30, hour_lt := by decide, minute_lt := by decide }

def withoutConclusion : Analysis := ⟨7, .epoch, ⟨["P"], none⟩, ⟨false, .noConclusion, [], 0, "no conclusion"⟩, "0F"⟩

/-- the fields from the last to the first after one that nobody asks for, the status as an object, and no conclusion -/
def scattered : Json :=
  .obj (("note", .null) :: (Json.present fieldNames (withoutConclusion.valuesWith (aheadOfUtc.renderAt 330)
    (.obj [(Status.noConclusion.code, .null)]) none)).reverse)

theorem reads_back_scattered :
    (330 : Int).natAbs < 1440 ∧ Instant.epoch.minus? (-330) = some aheadOfUtc ∧
      Instant.read? (aheadOfUtc.renderAt 330) = some .epoch ∧ read? scattered.render = some withoutConclusion ∧
      read? withoutConclusion.report.render = some withoutConclusion := by
  have hlocal : Instant.epoch.minus? (-330) = some aheadOfUtc := by decide
  have hcreated := reads_back.2.2.2 .epoch aheadOfUtc 330 (by decide) hlocal
  have hplain : scattered.Plain := by
    simp [scattered, Json.present, fieldNames, valuesWith, withoutConclusion, Json.strs, Json.Plain, Json.PlainFields,
      Json.PlainItems]
    decide
  have hrecord : scattered.IsRecord fieldNames (withoutConclusion.valuesWith (aheadOfUtc.renderAt 330)
      (.obj [(Status.noConclusion.code, .null)]) none) := by
    refine .obj ?_
    rw [List.filter_cons_of_neg (by decide), List.filter_reverse,
      List.filter_eq_self.2 fun f hf => List.contains_iff_mem.2 (Json.fst_mem_of_mem_present hf)]
    exact List.reverse_perm _
  have hread : read? scattered.render = some withoutConclusion := (reads_back.2.2.1 _ _).2
    ⟨scattered, Json.read?_render hplain, .intro hcreated (.inr rfl) (.inr ⟨rfl, rfl⟩) hrecord⟩
  exact ⟨by decide, hlocal, hcreated, hread, reads_back.2.1 _ _ hread⟩

end Analysis

end Sequitur
