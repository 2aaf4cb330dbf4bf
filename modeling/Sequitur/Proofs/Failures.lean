/-
Adds that fail.

Adding an argument fails in two ways, and they leave different things behind. A refused argument is turned down before
anything is done with it, so the store is what it was. Where the place cannot be written, the analysis has been pushed by
then and its id is used up, and nothing takes that back: it is listed and counted from then on, the oldest analysis may
have gone for it, and adding the argument again stores it a second time. The service answers such an addition as a failure
of its own.

- `Store.failure_of_add`: the two ways to fail, with all that each of them leaves behind;
- `Service.failed_analyse`: what requests after an addition that failed are answered;
- `Service.failures`: both, from every state.
-/
import Sequitur.Proofs.Requests

namespace Sequitur

/-! ## The newest analysis -/

namespace Archive

variable {a : Archive} {x : Analysis}

theorem summary_entry {now : Instant} {arg : Argument String} {summary : Summary} :
    (a.entry now arg summary).summary = summary := rfl

/-- as long as there is room no analysis has to go -/
theorem analyses_push_of_lt (h : a.analyses.length < capacity) : (a.push x).analyses = a.analyses ++ [x] := by
  have hfits : (a.analyses ++ [x]).length - capacity = 0 := by
    rw [List.length_append, List.length_singleton]
    omega
  rw [analyses_push, hfits, List.drop_zero]

theorem stats_push_of_lt (h : a.analyses.length < capacity) :
    (a.push x).stats = ⟨a.stats.total + 1, a.stats.invalid + (!x.summary.isValid).toNat⟩ := by
  rw [stats, analyses_push_of_lt h]
  cases hx : x.summary.isValid <;> simp [stats, hx]

/-- an id is used up -/
theorem push_ne : a.push x ≠ a := by
  intro h
  have hid : a.nextId + 1 = a.nextId := congrArg Archive.nextId h
  have hwrap : (a.nextId.toNat + 1) % UInt64.size = a.nextId.toNat := congrArg UInt64.toNat hid
  have hlt : a.nextId.toNat < UInt64.size := a.nextId.toNat_lt_size
  rcases Nat.lt_or_ge (a.nextId.toNat + 1) UInt64.size with hnext | hlast
  · rw [Nat.mod_eq_of_lt hnext] at hwrap
    omega
  · have hsize : a.nextId.toNat + 1 = UInt64.size := Nat.le_antisymm hlt hlast
    rw [hsize, Nat.mod_self] at hwrap
    rw [← hwrap] at hsize
    cases hsize

end Archive

namespace Store

variable {s : Store} {now : Instant} {arg : Argument String} {summary : Summary} {e : StoreError}

/-- what is left behind when adding fails and the analysis is kept all the same -/
structure Kept (before : Store) (x : Analysis) (after : Store) : Prop where
  place_eq : after.place = before.place
  archive_eq : after.archive = before.archive.push x
  archive_ne : after.archive ≠ before.archive
  /-- it is listed first -/
  recent_eq : ∀ n < Archive.capacity, after.archive.recent (n + 1) = x :: before.archive.recent n
  /-- and counted -/
  stats_eq : before.archive.analyses.length < Archive.capacity →
    after.archive.stats = ⟨before.archive.stats.total + 1, before.archive.stats.invalid + (!x.summary.isValid).toNat⟩
  /-- adding its argument again stores it twice, whether that fails or not -/
  again : ∀ later summary writable, ∃ y : Analysis, y.argument = x.argument ∧ y.id = x.id + 1 ∧
    (after.step (.add later x.argument summary writable)).archive.recent 2 = [y, x]

/-- the two ways in which adding an argument fails, from the store before to the store behind it -/
inductive Failure (before : Store) (arg : Argument String) (summary : Summary) (e : StoreError) (after : Store) : Prop where
  | refused (r : Refusal) (error_eq : e = .refused r) (unchanged : after = before)
  | kept (x : Analysis) (error_eq : e = .unwritable) (argument_eq : x.argument = arg) (summary_eq : x.summary = summary)
      (id_eq : x.id = before.archive.nextId) (kept : before.Kept x after)

/-- where the place cannot be written, what is added is kept -/
theorem kept_of_not_writable (h : arg.refusal? = none) (hw : s.place.writable = false) :
    s.Kept (s.archive.entry now arg summary) (s.add now arg summary).2 := by
  rw [add_of_not_writable h hw]
  constructor
  case place_eq => rfl
  case archive_eq => rfl
  case archive_ne => exact Archive.push_ne
  case recent_eq => exact fun n hn => Archive.recent_push hn
  case stats_eq => exact Archive.stats_push_of_lt
  case again =>
    intro later summary' writable
    let kept := s.archive.push (s.archive.entry now arg summary)
    refine ⟨kept.entry later arg summary', rfl, rfl, ?_⟩
    show (step ⟨kept, s.place⟩ (.add later arg summary' writable)).archive.recent 2 = _
    rw [archive_step_add h, Archive.recent_push (by decide), Archive.recent_push (by decide), Archive.recent, List.take_zero]

/-- adding fails by turning the argument down, and then nothing has changed, or by keeping what could not be saved -/
theorem failure_of_add (h : (s.add now arg summary).1 = .error e) :
    s.Failure arg summary e (s.add now arg summary).2 := by
  cases hr : arg.refusal? with
  | some r =>
    rw [add_of_refusal hr] at h ⊢
    exact .refused r (Except.error.inj h).symm rfl
  | none =>
    cases hw : s.place.writable with
    | true =>
      rw [add_of_writable hr hw] at h
      cases h
    | false =>
      refine .kept _ ?_ rfl rfl rfl (kept_of_not_writable hr hw)
      rw [add_of_not_writable hr hw] at h
      exact (Except.error.inj h).symm

end Store

/-! ## Requests -/

namespace Service

variable {s : Service} {r : Request} {arg : Argument String}

/-- what requests show of an analysis although adding it was answered with a failure -/
structure Shows (before : Service) (x : Analysis) (after : Service) : Prop where
  kept : before.store.Kept x after.store
  listed : ∀ get : Request, get.method = "GET" → get.path = "/analyses" →
    (after.handle get).1 = .json (.arr (x.report :: (before.store.archive.recent 9).map Analysis.report))
  counted : before.store.archive.analyses.length < Archive.capacity →
    ∀ get : Request, get.method = "GET" → get.path = "/stats" →
      (after.handle get).1 = .json (Stats.report ⟨before.store.archive.stats.total + 1,
        before.store.archive.stats.invalid + (!x.summary.isValid).toNat⟩)

theorem shows_of_not_writable (hr : r.argument = .ok arg) (hw : s.store.place.writable = false) :
    s.Shows (s.store.archive.entry s.clock arg (arg.check s.limits).summary) (s.analyse r).2 := by
  let x := s.store.archive.entry s.clock arg (arg.check s.limits).summary
  have hkept : s.store.Kept x (s.store.add s.clock arg (arg.check s.limits).summary).2 :=
    Store.kept_of_not_writable (Request.refusal?_of_argument hr) hw
  rw [analyse_of_not_writable hr hw]
  refine ⟨hkept, ?_, ?_⟩
  · intro get hm hp
    rw [handle_analyses hm hp, recentCount, hkept.recent_eq 9 (by decide), List.map_cons]
  · intro hroom get hm hp
    rw [handle_stats hm hp, hkept.stats_eq hroom]

/-- an addition that is answered with a failure is shown from then on -/
theorem failed_analyse (h : (s.analyse r).1 = .failed) :
    ∃ arg x, r.argument = .ok arg ∧ x.argument = arg ∧ s.Shows x (s.analyse r).2 := by
  rcases s.analyse_cases r with ⟨message, heq⟩ | ⟨arg, hr, ⟨body, heq⟩ | ⟨hw, -⟩⟩
  · rw [heq] at h
    cases h
  · rw [heq] at h
    cases h
  · exact ⟨arg, _, hr, rfl, shows_of_not_writable hr hw⟩

/-- an addition that is at fault changes nothing -/
theorem refused_analyse {message : String} (h : (s.analyse r).1 = .refused message) : (s.analyse r).2 = s := by
  rcases s.analyse_cases r with ⟨message', heq⟩ | ⟨arg, -, ⟨body, heq⟩ | ⟨-, heq⟩⟩
  · rw [heq]
  · rw [heq] at h
    cases h
  · rw [heq] at h
    cases h

/-- **Only what is refused leaves nothing behind.** When adding fails, the file is what it was. If the argument was refused,
everything else is too; if the place could not be written, the analysis has been pushed and its id is used up, it is listed
first and counted, and adding its argument again stores it twice. A request to add is no different: one that is at fault
changes nothing, and one that is answered with a failure is shown by the requests that follow. -/
theorem failures (s : Service) :
    (∀ now arg summary e, (s.store.add now arg summary).1 = .error e →
      s.store.Failure arg summary e (s.store.add now arg summary).2) ∧
      ∀ r : Request, r.method = "POST" → r.path = "/analyses" →
        (∀ message, (s.handle r).1 = .refused message → (s.handle r).2 = s) ∧
          ((s.handle r).1 = .failed →
            ∃ arg x, r.argument = .ok arg ∧ x.argument = arg ∧ s.Shows x (s.handle r).2) := by
  refine ⟨fun now arg summary e => Store.failure_of_add, ?_⟩
  intro r hm hp
  rw [handle_adding hm hp]
  exact ⟨fun message => refused_analyse, failed_analyse⟩

/-- an argument that is not valid -/
def nonSequitur : Argument String := ⟨["P"], some "Q"⟩

/-- each time that it is sent to a service that cannot write, it is answered with a failure and counted -/
theorem handle_nonSequitur {total invalid : Nat} (hl : s.limits = .standard) (hw : s.store.place.writable = false)
    (hs : s.store.archive.stats = ⟨total, invalid⟩) (hroom : total < Archive.capacity) :
    (s.handle (.adding nonSequitur)).1 = .failed ∧
      (s.handle (.adding nonSequitur)).2.limits = .standard ∧
      (s.handle (.adding nonSequitur)).2.store.place.writable = false ∧
      (s.handle (.adding nonSequitur)).2.store.archive.stats = ⟨total + 1, invalid + 1⟩ := by
  have hr : (Request.adding nonSequitur).argument = .ok nonSequitur := Request.argument_adding (by decide)
  have hinvalid : (nonSequitur.check .standard).isValid = false := by decide
  have hkept := (shows_of_not_writable hr hw).kept
  have hlength : s.store.archive.analyses.length = total := congrArg Stats.total hs
  have hstats := hkept.stats_eq (hlength ▸ hroom)
  rw [handle_adding rfl (by decide)]
  refine ⟨?_, ?_, ?_, ?_⟩
  · rw [analyse_of_not_writable hr hw]
  · rw [limits_analyse, hl]
  · rw [hkept.place_eq, hw]
  · rw [hstats, hs, Archive.summary_entry, hl, Outcome.summary, hinvalid]
    rfl

/-- Sent to a service that cannot write, the request is answered with a failure and counted nevertheless; sent again, it is
counted twice. -/
theorem nonSequitur_is_counted :
    ((ofPlace .blocked).handle .totals).1 = .json (Stats.report ⟨0, 0⟩) ∧
      ((ofPlace .blocked).handle (.adding nonSequitur)).1 = .failed ∧
      (((ofPlace .blocked).handle (.adding nonSequitur)).2.handle .totals).1 = .json (Stats.report ⟨1, 1⟩) ∧
      (((ofPlace .blocked).handle (.adding nonSequitur)).2.handle (.adding nonSequitur)).1 = .failed ∧
      ((((ofPlace .blocked).handle (.adding nonSequitur)).2.handle (.adding nonSequitur)).2.handle .totals).1 =
        .json (Stats.report ⟨2, 2⟩) := by
  have hget (s : Service) : (s.handle .totals).1 = .json s.store.archive.stats.report := by
    rw [handle_stats rfl (by decide)]
  have hnone : (ofPlace .blocked).store.archive.stats = ⟨0, 0⟩ := rfl
  obtain ⟨hfirst, hl, hw, hone⟩ := handle_nonSequitur (s := ofPlace .blocked) rfl rfl hnone (by decide)
  obtain ⟨hsecond, -, -, htwo⟩ := handle_nonSequitur hl hw hone (by decide)
  refine ⟨by rw [hget, hnone], hfirst, by rw [hget, hone], hsecond, by rw [hget, htwo]⟩

end Service

end Sequitur
