/-
What survives when writing fails now and then.

Adding either is acknowledged, with the analysis that was stored, or is not. Every write may fail, whatever came of the ones
before it; the text that stands at the place is then the one that was written last. Memory runs ahead of the file when a
write fails, and the next write that succeeds saves all that memory holds by then. Reloading goes back to the file, so ids
that were used up without being acknowledged may be given again; an acknowledged one is not.

What carries this through a run is that the archive at the place and the one in memory are both sound, and that the next id
in memory is never the lower one (`Store.Durable`). An acknowledgment makes the two equal, reloading too, and nothing else
changes what the place holds.

- `Store.effect`: the four things that an event can come to;
- `Store.step_of_acknowledged` and `Store.content_step`: when the file changes, and to what;
- `Store.Durable.step` and `Store.Durable.acknowledgments_rise`: ids between memory and file, event by event and over a run;
- `Store.durable_run`: acknowledged analyses are saved, reloading finds them, and their ids rise.
-/
import Sequitur.Proofs.Runs

namespace Sequitur

namespace Store

variable {s : Store} {e : Event} {events : List Event} {x : Analysis}

/-! ## Acknowledgments -/

/-- the analysis that whoever adds is told was stored -/
def acknowledged? (s : Store) : Event → Option Analysis
  | .add now arg summary writable =>
    match ({ s with place := { s.place with writable := writable } }.add now arg summary).1 with
    | .ok x => some x
    | .error _ => none
  | .reload => none

/-- all that is acknowledged in a run, in order -/
def acknowledgments (s : Store) : List Event → List Analysis
  | [] => []
  | e :: events => (s.acknowledged? e).toList ++ (s.step e).acknowledgments events

/-- each id that is given in a run has another one after it -/
def IdsRemain (s : Store) : List Event → Prop
  | [] => True
  | e :: events => (e.accepted = true → s.archive.nextId.toNat + 1 < UInt64.size) ∧ (s.step e).IdsRemain events

theorem run_append (s : Store) (before after : List Event) : s.run (before ++ after) = (s.run before).run after :=
  List.foldl_append

theorem idsRemain_append (s : Store) (before after : List Event) :
    s.IdsRemain (before ++ after) ↔ s.IdsRemain before ∧ (s.run before).IdsRemain after := by
  induction before generalizing s with
  | nil => exact ⟨fun h => ⟨trivial, h⟩, fun h => h.2⟩
  | cons e before ih => rw [List.cons_append, IdsRemain, IdsRemain, ih, and_assoc, run_cons]

/-- all that an event can come to: reloading, or one of the three ends of adding -/
inductive Effect (s : Store) (e : Event) : Prop where
  | reloaded (event_eq : e = .reload)
  | refused (accepted : e.accepted = false) (unacknowledged : s.acknowledged? e = none)
      (archive_eq : (s.step e).archive = s.archive) (content_eq : (s.step e).place.content = s.place.content)
  /-- what is acknowledged is the newest analysis in memory, and all of memory is at the place -/
  | saved (now : Instant) (arg : Argument String) (summary : Summary) (accepted : e.accepted = true)
      (writes : e.writes = true) (acknowledged : s.acknowledged? e = some (s.archive.entry now arg summary))
      (step_eq : s.step e = ⟨s.archive.push (s.archive.entry now arg summary),
        .file (s.archive.push (s.archive.entry now arg summary)).render⟩)
  /-- in memory only -/
  | kept (now : Instant) (arg : Argument String) (summary : Summary) (accepted : e.accepted = true)
      (unwritable : e.writes = false) (unacknowledged : s.acknowledged? e = none)
      (archive_eq : (s.step e).archive = s.archive.push (s.archive.entry now arg summary))
      (content_eq : (s.step e).place.content = s.place.content)

theorem effect (s : Store) (e : Event) : s.Effect e := by
  cases e with
  | reload => exact .reloaded rfl
  | add now arg summary writable =>
    cases hr : arg.refusal? with
    | some r =>
      refine .refused (by simp [Event.accepted, hr]) ?_ ?_ ?_
      · rw [acknowledged?, add_of_refusal hr]
      · rw [step, add_of_refusal hr]
      · rw [step, add_of_refusal hr]
        rfl
    | none =>
      have haccepted : (Event.add now arg summary writable).accepted = true := by simp [Event.accepted, hr]
      cases writable with
      | true =>
        refine .saved now arg summary haccepted rfl ?_ ?_
        · rw [acknowledged?, add_of_writable hr rfl]
        · rw [step, add_of_writable hr rfl]
      | false =>
        refine .kept now arg summary haccepted rfl ?_ ?_ ?_
        · rw [acknowledged?, add_of_not_writable hr rfl]
        · rw [step, add_of_not_writable hr rfl]
        · rw [step, add_of_not_writable hr rfl]
          rfl

/-- what is acknowledged is what is taken in while the place can be written -/
theorem isSome_acknowledged? (s : Store) (e : Event) : (s.acknowledged? e).isSome = (e.accepted && e.writes) := by
  cases s.effect e with
  | reloaded he => rw [he]; rfl
  | refused hacc hnone => rw [hnone, hacc]; rfl
  | saved _ _ _ hacc hw hsome => rw [hsome, hacc, hw]; rfl
  | kept _ _ _ hacc hw hnone => rw [hnone, hacc, hw]; rfl

theorem acknowledgments_eq_nil (h : ∀ e ∈ events, (e.accepted && e.writes) = false) : s.acknowledgments events = [] := by
  induction events generalizing s with
  | nil => rfl
  | cons e events ih =>
    have hnone : s.acknowledged? e = none := by
      rw [← Option.not_isSome_iff_eq_none, isSome_acknowledged?, h e List.mem_cons_self]
      exact Bool.false_ne_true
    rw [acknowledgments, hnone, ih fun e' he' => h e' (List.mem_cons_of_mem _ he')]
    rfl

/-- what an acknowledgment says of the analysis and of the store behind it -/
theorem step_of_acknowledged (h : s.acknowledged? e = some x) :
    e.accepted = true ∧ x.id = s.archive.nextId ∧
      s.step e = ⟨s.archive.push x, .file (s.archive.push x).render⟩ := by
  cases s.effect e with
  | reloaded he => rw [he] at h; cases h
  | refused _ hnone => rw [hnone] at h; cases h
  | saved now arg summary hacc _ hsome hstep =>
    rw [hsome] at h
    obtain rfl := Option.some.inj h
    exact ⟨hacc, rfl, hstep⟩
  | kept _ _ _ _ _ hnone => rw [hnone] at h; cases h

theorem read?_step_of_acknowledged (h : s.acknowledged? e = some x) :
    (s.step e).place.content.bind Archive.read? = some (s.step e).archive := by
  rw [(step_of_acknowledged h).2.2, Place.content_file, Option.bind_some, Archive.read?_render]

/-- without an acknowledgment the place holds what it held -/
theorem content_step (h : s.acknowledged? e = none) : (s.step e).place.content = s.place.content := by
  cases s.effect e with
  | reloaded he => rw [he]; rfl
  | refused _ _ _ hcontent => exact hcontent
  | saved _ _ _ _ _ hsome => rw [hsome] at h; cases h
  | kept _ _ _ _ _ _ _ hcontent => exact hcontent

theorem content_run (h : s.acknowledgments events = []) : (s.run events).place.content = s.place.content := by
  induction events generalizing s with
  | nil => rfl
  | cons e events ih =>
    obtain ⟨hfirst, hrest⟩ := List.append_eq_nil_iff.1 h
    rw [run_cons, ih hrest, content_step (Option.toList_eq_nil_iff.1 hfirst)]

/-! ## Between memory and file -/

/-- file and memory are sound, and memory is not behind -/
structure Durable (s : Store) : Prop where
  sound_held : s.place.held.Sound
  sound : s.archive.Sound
  nextId_le : s.place.held.nextId ≤ s.archive.nextId

theorem durable_vacant : (ofPlace .vacant).Durable :=
  ⟨Archive.sound_empty, Archive.sound_empty, UInt64.le_refl _⟩

/-- reloading finds what the place holds, and mistrusts none of it -/
theorem Durable.reload_eq (h : s.Durable) : s.reload = ⟨s.place.held, s.place⟩ := by
  rw [reload, ofPlace, Archive.ofPlace, ← Place.held, h.sound_held.trusted_eq]

theorem held_congr {p q : Place} (h : p.content = q.content) : p.held = q.held := by rw [Place.held, Place.held, h]

/-- what is taken in is sound, and memory is even further ahead -/
theorem Durable.push_entry (h : s.Durable) (hid : s.archive.nextId.toNat + 1 < UInt64.size) (now : Instant)
    (arg : Argument String) (summary : Summary) :
    (s.archive.push (s.archive.entry now arg summary)).Sound ∧
      s.place.held.nextId ≤ (s.archive.push (s.archive.entry now arg summary)).nextId := by
  refine ⟨h.sound.push_entry hid, ?_⟩
  have hle := UInt64.le_iff_toNat_le.1 h.nextId_le
  rw [UInt64.le_iff_toNat_le, Archive.toNat_nextId_push hid]
  omega

/-- an event keeps that; the next id at the place does not fall, and the one in memory rises by one at most -/
theorem Durable.step (h : s.Durable) (hid : e.accepted = true → s.archive.nextId.toNat + 1 < UInt64.size) :
    (s.step e).Durable ∧ s.place.held.nextId ≤ (s.step e).place.held.nextId ∧
      (s.step e).archive.nextId.toNat ≤ s.archive.nextId.toNat + e.accepted.toNat := by
  cases s.effect e with
  | reloaded he =>
    have hle := UInt64.le_iff_toNat_le.1 h.nextId_le
    rw [he, Store.step, h.reload_eq]
    exact ⟨⟨h.sound_held, h.sound_held, UInt64.le_refl _⟩, UInt64.le_refl _, Nat.le_add_right_of_le hle⟩
  | refused hacc _ harchive hcontent =>
    have hheld := held_congr hcontent
    refine ⟨⟨?_, ?_, ?_⟩, ?_, ?_⟩
    · rw [hheld]; exact h.sound_held
    · rw [harchive]; exact h.sound
    · rw [hheld, harchive]; exact h.nextId_le
    · rw [hheld]; exact UInt64.le_refl _
    · rw [harchive]; exact Nat.le_add_right _ _
  | saved now arg summary hacc _ _ hstep =>
    obtain ⟨hpush, hrise⟩ := h.push_entry (hid hacc) now arg summary
    rw [hstep, hacc, Place.held_file]
    refine ⟨⟨?_, hpush, ?_⟩, hrise, Nat.le_of_eq (Archive.toNat_nextId_push (hid hacc))⟩
    · rw [Place.held_file]; exact hpush
    · rw [Place.held_file]; exact UInt64.le_refl _
  | kept now arg summary hacc _ _ harchive hcontent =>
    have hheld := held_congr hcontent
    obtain ⟨hpush, hrise⟩ := h.push_entry (hid hacc) now arg summary
    refine ⟨⟨?_, ?_, ?_⟩, ?_, ?_⟩
    · rw [hheld]; exact h.sound_held
    · rw [harchive]; exact hpush
    · rw [hheld, harchive]; exact hrise
    · rw [hheld]; exact UInt64.le_refl _
    · rw [harchive, hacc]; exact Nat.le_of_eq (Archive.toNat_nextId_push (hid hacc))

theorem Durable.run (h : s.Durable) (hid : s.IdsRemain events) : (s.run events).Durable := by
  induction events generalizing s with
  | nil => exact h
  | cons e events ih => exact ih (h.step hid.1).1 hid.2

/-- the ids that are acknowledged in a run are no less than the next one at the place, and rise -/
theorem Durable.acknowledgments_rise (h : s.Durable) (hid : s.IdsRemain events) :
    (∀ x ∈ s.acknowledgments events, s.place.held.nextId ≤ x.id) ∧
      (s.acknowledgments events).Pairwise fun x y => x.id < y.id := by
  induction events generalizing s with
  | nil => exact ⟨by simp [Store.acknowledgments], .nil⟩
  | cons e events ih =>
    obtain ⟨hstep, hheld, -⟩ := h.step hid.1
    obtain ⟨hge, hrise⟩ := ih hstep hid.2
    rw [Store.acknowledgments]
    cases hack : s.acknowledged? e with
    | none => exact ⟨fun x hx => UInt64.le_trans hheld (hge x hx), hrise⟩
    | some x =>
      obtain ⟨hacc, hx, heq⟩ := step_of_acknowledged hack
      -- the place now goes on counting behind the acknowledged id
      have hlt : x.id < (s.step e).place.held.nextId := by
        rw [heq, Place.held_file, UInt64.lt_iff_toNat_lt, Archive.toNat_nextId_push (hid.1 hacc), hx]
        exact Nat.lt_succ_self _
      refine ⟨fun y hy => ?_, List.pairwise_cons.2 ⟨fun y hy => UInt64.lt_of_lt_of_le hlt (hge y hy), hrise⟩⟩
      rcases List.mem_cons.1 hy with rfl | hy
      · rw [hx]
        exact h.nextId_le
      · exact UInt64.le_trans hheld (hge y hy)

/-- reloading after events of which none is acknowledged goes back to what the place held before them -/
theorem Durable.reload_run_eq_held (h : s.Durable) (hid : s.IdsRemain events) (hnone : s.acknowledgments events = []) :
    (s.run events).reload.archive = s.place.held := by
  rw [(h.run hid).reload_eq]
  exact held_congr (content_run hnone)

/-- as long as there are fewer events than numbers, ids remain -/
theorem Durable.idsRemain (h : s.Durable)
    (hid : s.archive.nextId.toNat + events.countP Event.accepted < UInt64.size) : s.IdsRemain events := by
  induction events generalizing s with
  | nil => trivial
  | cons e events ih =>
    rw [countP_cons_toNat] at hid
    have hfull : e.accepted = true → s.archive.nextId.toNat + 1 < UInt64.size := by
      intro he
      rw [he, Bool.toNat_true] at hid
      omega
    obtain ⟨hstep, -, hnext⟩ := h.step hfull
    exact ⟨hfull, ih hstep (by omega)⟩

/-- **What is acknowledged survives.** Let a store be opened where nothing stood, and let any adds and reloads happen, each
write succeeding or failing on its own, while ids remain. An add is acknowledged exactly if it is not refused and can be
written. Right after that the text at the place reads back as all that is in memory, which is what was there before,
analyses that could not be saved included, with the new one. Reloading then finds exactly that archive for as long as
nothing else is acknowledged, and nothing if nothing ever was. The ids that are acknowledged, over all reloads, rise
strictly. -/
theorem durable_run (events : List Event) (hid : (ofPlace .vacant).IdsRemain events) :
    (∀ before e, (((ofPlace .vacant).run before).acknowledged? e).isSome = (e.accepted && e.writes)) ∧
      (∀ before e after x, events = before ++ e :: after → ((ofPlace .vacant).run before).acknowledged? e = some x →
        let s := (ofPlace .vacant).run (before ++ [e])
        s.archive = ((ofPlace .vacant).run before).archive.push x ∧
          s.place.content.bind Archive.read? = some s.archive ∧
          (s.acknowledgments after = [] → ((ofPlace .vacant).run events).reload.archive = s.archive)) ∧
      ((ofPlace .vacant).acknowledgments events = [] → ((ofPlace .vacant).run events).reload.archive = .empty) ∧
      ((ofPlace .vacant).acknowledgments events).Pairwise fun x y => x.id < y.id := by
  refine ⟨fun _ => isSome_acknowledged? _, ?_, durable_vacant.reload_run_eq_held hid, (durable_vacant.acknowledgments_rise hid).2⟩
  rintro before e after x rfl hack s
  have hs : s = ((ofPlace .vacant).run before).step e := run_append _ before [e]
  have hread : s.place.content.bind Archive.read? = some s.archive := by
    rw [hs]
    exact read?_step_of_acknowledged hack
  rw [List.append_cons, idsRemain_append] at hid
  have hdurable : s.Durable := durable_vacant.run hid.1
  refine ⟨?_, hread, fun hnone => ?_⟩
  · rw [hs, (step_of_acknowledged hack).2.2]
  · have hheld : s.place.held = s.archive := by rw [Place.held, hread, Option.getD_some]
    rw [List.append_cons, run_append, hdurable.reload_run_eq_held hid.2 hnone, hheld]

/-- two writes that fail, an argument that is refused, and reloading in between -/
def failingEvents : List Event :=
  [.add .epoch ⟨["P"], some "P"⟩ ⟨true, .checked, ["P"], 0, ""⟩ true,
    .add .epoch ⟨["P"], some "Q"⟩ ⟨false, .checked, ["P", "Q"], 1, ""⟩ false,
    .reload,
    .add .epoch ⟨List.replicate 65 "P", some "P"⟩ ⟨true, .checked, ["P"], 0, ""⟩ true,
    .add lateInstant ⟨["Q"], some "P"⟩ ⟨false, .checked, ["P", "Q"], 1, ""⟩ false]

/-- the add after them that is acknowledged -/
def lastingAdd : Event := .add lateInstant ⟨["\"P\" | Q"], none⟩ ⟨false, .noConclusion, [], 0, "no conclusion"⟩ true

theorem durable_run_failing :
    (ofPlace .vacant).IdsRemain (failingEvents ++ lastingAdd :: failingEvents.tail) ∧
      ((ofPlace .vacant).acknowledgments (failingEvents ++ lastingAdd :: failingEvents.tail)).Pairwise
        (fun x y => x.id < y.id) ∧
      ((ofPlace .vacant).run (failingEvents ++ lastingAdd :: failingEvents.tail)).reload.archive =
        ((ofPlace .vacant).run (failingEvents ++ [lastingAdd])).archive := by
  have hcount : (failingEvents ++ lastingAdd :: failingEvents.tail).countP Event.accepted = 6 := by decide
  have hid : (ofPlace .vacant).IdsRemain (failingEvents ++ lastingAdd :: failingEvents.tail) := by
    apply durable_vacant.idsRemain
    rw [hcount]
    decide
  have hsome : (((ofPlace .vacant).run failingEvents).acknowledged? lastingAdd).isSome = true := by
    rw [isSome_acknowledged?]
    decide
  obtain ⟨x, hack⟩ := Option.isSome_iff_exists.1 hsome
  have hnone : ((ofPlace .vacant).run (failingEvents ++ [lastingAdd])).acknowledgments failingEvents.tail = [] :=
    acknowledgments_eq_nil (by decide)
  obtain ⟨-, hlast, -, hrise⟩ := durable_run _ hid
  exact ⟨hid, hrise, (hlast failingEvents lastingAdd failingEvents.tail x rfl hack).2.2 hnone⟩

end Store

end Sequitur
