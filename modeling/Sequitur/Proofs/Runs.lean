/-
Runs of a store: adding and reloading in any order.

Adding comes to one of three ends: the argument is refused and nothing changes, or the new analysis is in memory and
saved, or it is in memory and the place could not be written. `Store.add_of_refusal`, `Store.add_of_writable` and
`Store.add_of_not_writable` say all that each of them does. An event says of the place whether it can be written then.

What a run from nothing keeps is that the archive is sound: every analysis is rightly sealed and the next id is beyond
every id in use. An archive that is sound and saved is what reloading finds, and nothing in it is mistrusted.

- `Archive.Sound.trusted_eq`: a sound archive is trusted as it stands;
- `Store.Settled.step` and `Store.Settled.run`: if every write succeeds, the store is settled after each event;
- `Store.reload_run`: reloading after such a run, at any point of it, changes nothing.
-/
import Sequitur.Archive.RoundTrip

namespace Sequitur

variable {now : Instant} {arg : Argument String} {summary : Summary}

/-- counting over a run, its first step apart -/
theorem countP_cons_toNat {α : Type} (p : α → Bool) (a : α) (l : List α) :
    (a :: l).countP p = (p a).toNat + l.countP p := by
  cases hp : p a <;> simp [hp, Nat.add_comm]

/-! ## Sound archives -/

namespace Archive

variable {a : Archive} {x y : Analysis}

/-- every analysis is rightly sealed, and its id is below the next one -/
structure Sound (a : Archive) : Prop where
  isSealed : ∀ x ∈ a.analyses, x.isSealed = true
  id_lt : ∀ x ∈ a.analyses, x.id < a.nextId

/-- the id after one that is not the last of all -/
theorem toNat_add_one {id : UInt64} (h : id.toNat + 1 < UInt64.size) : (id + 1).toNat = id.toNat + 1 := by
  have hone : (1 : UInt64).toNat = 1 := rfl
  rw [UInt64.toNat_add, hone, Nat.mod_eq_of_lt h]

theorem sound_empty : empty.Sound := ⟨by simp [empty], by simp [empty]⟩

/-! ### Fresh ids -/

instance : Std.MaxEqOr UInt64 where
  max_eq_or m n := by
    show (if m ≤ n then n else m) = m ∨ (if m ≤ n then n else m) = n
    split
    · exact .inr rfl
    · exact .inl rfl

instance : Std.LawfulOrderSup UInt64 where
  max_le_iff l m n := by
    show (if l ≤ m then m else l) ≤ n ↔ l ≤ n ∧ m ≤ n
    split
    · rename_i hlm
      exact ⟨fun h => ⟨UInt64.le_trans hlm h, h⟩, fun h => h.2⟩
    · rename_i hlm
      have hml : m ≤ l := UInt64.le_of_lt (UInt64.not_le.1 hlm)
      exact ⟨fun h => ⟨h, UInt64.le_trans hml h⟩, fun h => h.1⟩

variable {nextId : UInt64} {xs : List Analysis}

/-- a fresh id is no less than the given one -/
theorem le_freshId : nextId ≤ freshId nextId xs := by
  unfold freshId
  split
  · exact (Std.max_le_iff.1 (UInt64.le_refl _)).1
  · exact UInt64.le_refl _

/-- it is beyond all ids in use, if each of them has another one after it -/
theorem id_lt_freshId (h : ∀ x ∈ xs, x.id.toNat + 1 < UInt64.size) : ∀ x ∈ xs, x.id < freshId nextId xs := by
  intro x hx
  unfold freshId
  split
  · rename_i greatest hmax
    obtain ⟨y, hy, hid⟩ := List.mem_map.1 (List.max?_mem hmax)
    have hnext : (greatest + 1).toNat = greatest.toNat + 1 := toNat_add_one (hid ▸ h y hy)
    have hle : x.id ≤ greatest := (List.max?_le_iff hmax).1 (UInt64.le_refl _) _ (List.mem_map_of_mem hx)
    have hlt : x.id < greatest + 1 := by
      rw [UInt64.lt_iff_toNat_lt, hnext]
      exact Nat.lt_succ_of_le (UInt64.le_iff_toNat_le.1 hle)
    exact UInt64.lt_of_lt_of_le hlt (Std.max_le_iff.1 (UInt64.le_refl _)).2
  · rename_i hmax
    have hnil : xs = [] := List.map_eq_nil_iff.1 (List.max?_eq_none_iff.1 hmax)
    rw [hnil] at hx
    cases hx

/-- and it is no greater than that takes -/
theorem toNat_freshId_le {bound : Nat} (hn : nextId.toNat ≤ bound) (h : ∀ x ∈ xs, x.id.toNat < bound)
    (hb : bound < UInt64.size) : (freshId nextId xs).toNat ≤ bound := by
  unfold freshId
  split
  · rename_i greatest hmax
    obtain ⟨x, hx, hid⟩ := List.mem_map.1 (List.max?_mem hmax)
    have hlt : greatest.toNat < bound := hid ▸ h x hx
    have hnext : (greatest + 1).toNat = greatest.toNat + 1 := toNat_add_one (by omega)
    rcases Std.MaxEqOr.max_eq_or nextId (greatest + 1) with hm | hm
    · rw [hm]
      exact hn
    · rw [hm, hnext]
      exact hlt
  · exact hn

/-- an id beyond all that are in use is fresh as it is -/
theorem freshId_eq (h : ∀ x ∈ xs, x.id < nextId) : freshId nextId xs = nextId := by
  have hle : (freshId nextId xs).toNat ≤ nextId.toNat :=
    toNat_freshId_le (Nat.le_refl _) (fun x hx => UInt64.lt_iff_toNat_lt.1 (h x hx)) nextId.toNat_lt_size
  exact UInt64.le_antisymm (UInt64.le_iff_toNat_le.2 hle) le_freshId

/-! ### What is trusted -/

/-- a sound archive is trusted as it stands -/
theorem Sound.trusted_eq (h : a.Sound) : a.trusted = a := by
  have hkept : a.analyses.filter Analysis.isSealed = a.analyses := List.filter_eq_self.2 h.isSealed
  rw [trusted, hkept, freshId_eq h.id_lt]

theorem analyses_push :
    (a.push y).analyses = (a.analyses ++ [y]).drop ((a.analyses ++ [y]).length - capacity) := by
  simp only [push]

theorem mem_push (h : x ∈ (a.push y).analyses) : x ∈ a.analyses ∨ x = y := by
  rw [analyses_push] at h
  have hall : x ∈ a.analyses ++ [y] := List.mem_of_mem_drop h
  rwa [List.mem_append, List.mem_singleton] at hall

/-- what was pushed last is listed first -/
theorem recent_push {n : Nat} (h : n < capacity) : (a.push y).recent (n + 1) = y :: a.recent n := by
  have hlength : (a.analyses ++ [y]).length = a.analyses.length + 1 := by
    rw [List.length_append, List.length_singleton]
  have hcount : min (n + 1) (a.analyses.length + 1 - (a.analyses.length + 1 - capacity)) =
      min n a.analyses.length + 1 := by
    omega
  have htake : a.analyses.reverse.take (min n a.analyses.length) = a.recent n := by
    rw [← List.length_reverse, ← List.take_eq_take_min, recent]
  rw [recent, analyses_push, List.reverse_drop, List.take_take, hlength, hcount, List.reverse_append,
    List.reverse_singleton, List.singleton_append, List.take_succ_cons, htake]

theorem toNat_nextId_push (h : a.nextId.toNat + 1 < UInt64.size) : (a.push y).nextId.toNat = a.nextId.toNat + 1 := by
  rw [push, toNat_add_one h]

/-- the newest analysis is sealed, and takes the id that the next one will not have -/
theorem Sound.push_entry (h : a.Sound) (hid : a.nextId.toNat + 1 < UInt64.size) :
    (a.push (a.entry now arg summary)).Sound := by
  have hlt : a.nextId < (a.push (a.entry now arg summary)).nextId := by
    rw [UInt64.lt_iff_toNat_lt, toNat_nextId_push hid]
    exact Nat.lt_succ_self _
  constructor
  · intro x hx
    rcases mem_push hx with hx | rfl
    · exact h.isSealed x hx
    · exact Analysis.isSealed_sealed _
  · intro x hx
    rcases mem_push hx with hx | rfl
    · exact UInt64.lt_trans (h.id_lt x hx) hlt
    · exact hlt

end Archive

/-- the archive that is found at a place, before any of it is mistrusted -/
def Place.held (p : Place) : Archive := (p.content.bind Archive.read?).getD .empty

theorem Place.content_file (text : String) : (file text).content = some text := rfl

theorem Place.held_file (a : Archive) : (file a.render).held = a := by
  rw [held, content_file, Option.bind_some, a.read?_render, Option.getD_some]

namespace Store

variable {s : Store}

/-! ## Adding -/

/-- a refused argument leaves the store as it was -/
theorem add_of_refusal {r : Refusal} (h : arg.refusal? = some r) :
    s.add now arg summary = (.error (.refused r), s) := by
  rw [add, h]

/-- an argument that is taken in is stored and saved where that is possible -/
theorem add_of_writable (h : arg.refusal? = none) (hw : s.place.writable = true) :
    s.add now arg summary = (.ok (s.archive.entry now arg summary),
      ⟨s.archive.push (s.archive.entry now arg summary),
        .file (s.archive.push (s.archive.entry now arg summary)).render⟩) := by
  simp [add, h, flush, Place.write?, hw]

/-- elsewhere it is stored only -/
theorem add_of_not_writable (h : arg.refusal? = none) (hw : s.place.writable = false) :
    s.add now arg summary =
      (.error .unwritable, { s with archive := s.archive.push (s.archive.entry now arg summary) }) := by
  simp [add, h, flush, Place.write?, hw]

/-- what was stored is the entry of the archive -/
theorem eq_entry_of_add {a : Analysis} (h : (s.add now arg summary).1 = .ok a) :
    a = s.archive.entry now arg summary := by
  cases hr : arg.refusal? with
  | some r =>
    rw [add_of_refusal hr] at h
    cases h
  | none =>
    cases hw : s.place.writable with
    | true =>
      rw [add_of_writable hr hw] at h
      exact (Except.ok.inj h).symm
    | false =>
      rw [add_of_not_writable hr hw] at h
      cases h

/-! ## Events and runs -/

/-- what happens to a store -/
inductive Event where
  /-- an argument is added, while the place can be written or not -/
  | add (now : Instant) (arg : Argument String) (summary : Summary) (writable : Bool)
  | reload

namespace Event

/-- nothing is in the way of writing -/
def writes : Event → Bool
  | add _ _ _ writable => writable
  | reload => true

/-- an id is used up -/
def accepted : Event → Bool
  | add _ arg _ _ => arg.refusal?.isNone
  | reload => false

end Event

/-- what an event does to a store; where nothing could be written, the text that stood there stays -/
def step (s : Store) : Event → Store
  | .add now arg summary writable =>
    ({ s with place := { s.place with writable := writable } }.add now arg summary).2
  | .reload => s.reload

def run (s : Store) (events : List Event) : Store := events.foldl step s

theorem run_cons (s : Store) (e : Event) (events : List Event) : s.run (e :: events) = (s.step e).run events := rfl

/-- an argument that is taken in is pushed, whether it can be saved or not -/
theorem archive_step_add (h : arg.refusal? = none) (writable : Bool) :
    (s.step (.add now arg summary writable)).archive = s.archive.push (s.archive.entry now arg summary) := by
  cases writable with
  | true => rw [step, add_of_writable h rfl]
  | false => rw [step, add_of_not_writable h rfl]

/-- what is saved is what is in memory, and it is sound -/
structure Settled (s : Store) : Prop where
  saved : s.place.held = s.archive
  sound : s.archive.Sound

theorem settled_vacant : (ofPlace .vacant).Settled := ⟨rfl, Archive.sound_empty⟩

/-- reloading finds what was in memory -/
theorem Settled.reload_eq (h : s.Settled) : s.reload = s := by
  have harchive : Archive.ofPlace s.place = s.archive := by
    rw [Archive.ofPlace, ← Place.held, h.saved, h.sound.trusted_eq]
  rw [reload, ofPlace, harchive]

/-- after an event that could write, the store is settled again, and only an accepted argument has used up an id -/
theorem Settled.step {e : Event} (h : s.Settled) (hw : e.writes = true)
    (hid : s.archive.nextId.toNat + e.accepted.toNat < UInt64.size) :
    (s.step e).Settled ∧ (s.step e).archive.nextId.toNat = s.archive.nextId.toNat + e.accepted.toNat := by
  cases e with
  | reload =>
    rw [Store.step, h.reload_eq]
    exact ⟨h, rfl⟩
  | add now arg summary writable =>
    cases hr : arg.refusal? with
    | some r =>
      rw [Store.step, add_of_refusal hr]
      exact ⟨⟨h.saved, h.sound⟩, by simp [Event.accepted, hr]⟩
    | none =>
      have hfull : s.archive.nextId.toNat + 1 < UInt64.size := by simpa [Event.accepted, hr] using hid
      rw [Store.step, add_of_writable hr hw]
      refine ⟨⟨Place.held_file _, h.sound.push_entry hfull⟩, ?_⟩
      rw [Archive.toNat_nextId_push hfull]
      simp [Event.accepted, hr]

/-- the events of a run, one after the other -/
theorem Settled.run {events : List Event} (h : s.Settled) (hw : ∀ e ∈ events, e.writes = true)
    (hid : s.archive.nextId.toNat + events.countP Event.accepted < UInt64.size) :
    (s.run events).Settled ∧
      (s.run events).archive.nextId.toNat = s.archive.nextId.toNat + events.countP Event.accepted := by
  induction events generalizing s with
  | nil => exact ⟨h, rfl⟩
  | cons e events ih =>
    -- the ids that are left cover the first event and the others together
    rw [countP_cons_toNat] at hid ⊢
    obtain ⟨hstep, hnext⟩ := h.step (hw e List.mem_cons_self) (by omega)
    obtain ⟨hrun, hlast⟩ := ih hstep (fun e' he' => hw e' (List.mem_cons_of_mem e he')) (by omega)
    rw [run_cons]
    exact ⟨hrun, by omega⟩

/-- **Reloading loses nothing.** Let a store start where nothing stands yet, and let any events happen to it, each able to
write, while ids remain. Reloading then changes nothing: the archive read back is the one in memory, with its next id, and
none of its analyses is mistrusted. -/
theorem reload_run (events : List Event) (hw : ∀ e ∈ events, e.writes = true)
    (hid : events.countP Event.accepted < UInt64.size) :
    ((ofPlace .vacant).run events).reload = (ofPlace .vacant).run events ∧
      ((ofPlace .vacant).run events).Settled ∧
      ((ofPlace .vacant).run events).archive.nextId.toNat = events.countP Event.accepted := by
  have hzero : (ofPlace .vacant).archive.nextId.toNat = 0 := rfl
  obtain ⟨hrun, hnext⟩ := settled_vacant.run hw (by omega)
  exact ⟨hrun.reload_eq, hrun, by omega⟩

/-- in a leap second of the year 10000 -/
def lateInstant : Instant := (Instant.ofUnix? 253402300859 1500000000).getD .epoch

/-- texts that need escapes, reloading, an argument that is refused, and one that is not -/
def mixedEvents : List Event :=
  [.add lateInstant ⟨["\"P\" | Q", "\\\n"], none⟩ ⟨false, .noConclusion, [], 0, "no conclusion"⟩ true,
    .reload,
    .add .epoch ⟨List.replicate 65 "P", some "P"⟩ ⟨true, .checked, ["P"], 0, ""⟩ true,
    .add .epoch ⟨["P"], some "Q"⟩ ⟨false, .checked, ["P", "Q"], 1, "refuted"⟩ true]

theorem reload_run_mixedEvents :
    lateInstant.renderOffset = "+10000-01-01T00:00:60.500+00:00" ∧ (∀ e ∈ mixedEvents, e.writes = true) ∧
      mixedEvents.countP Event.accepted < UInt64.size ∧
      ((ofPlace .vacant).run mixedEvents).reload = (ofPlace .vacant).run mixedEvents ∧
      ((ofPlace .vacant).run mixedEvents).Settled ∧
      ((ofPlace .vacant).run mixedEvents).archive.nextId.toNat = 2 := by
  have hw : ∀ e ∈ mixedEvents, e.writes = true := by decide
  have hcount : mixedEvents.countP Event.accepted = 2 := by decide
  have hid : mixedEvents.countP Event.accepted < UInt64.size := by rw [hcount]; decide
  obtain ⟨hreload, hsettled, hnext⟩ := reload_run mixedEvents hw hid
  exact ⟨by decide, hw, hid, hreload, hsettled, hnext.trans hcount⟩

end Store

end Sequitur
