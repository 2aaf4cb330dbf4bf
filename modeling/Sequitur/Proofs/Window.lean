/-
An open store is a window over a log.

The log keeps every analysis that was ever taken in, from the oldest to the newest, and gives them the numbers 0, 1, 2 and
so on as ids. Nothing is taken out of it, it knows no file, and it answers calls from its end alone. A store that was opened
where nothing stood yet cannot be told apart from the log, although it lets the oldest analyses go: `Archive.WindowOf` says
that the archive is the end of the log, and each call keeps that (`Store.call_window`).

An argument that could not be saved is in the log like any other one; a refused one is not.

- `Archive.WindowOf.recent_eq` and `Archive.WindowOf.ids_eq`: what is seen through the window;
- `Store.calls_window`: a run of calls keeps the window over the log, and its answers are those of the log;
- `Store.window_of_calls`: what that says of a store that was opened where nothing stood.
-/
import Sequitur.Proofs.Calls

namespace Sequitur

variable {now : Instant} {arg : Argument String} {summary : Summary}

/-! ## The log -/

/-- what the call takes in -/
def Call.taken? : Call → Option (Instant × Argument String × Summary)
  | add now arg summary _ => if arg.refusal?.isNone then some (now, arg, summary) else none
  | recent _ => none
  | stats => none

namespace Log

/-- the next analysis of a log, with the number of those before it as its id -/
def entry (log : List Analysis) (now : Instant) (arg : Argument String) (summary : Summary) : Analysis :=
  Analysis.sealed ⟨UInt64.ofNat log.length, now, arg, summary, ""⟩

/-- the newest analyses of a log, oldest first -/
def newest (log : List Analysis) (n : Nat) : List Analysis := log.drop (log.length - n)

/-- answers a call -/
def call (log : List Analysis) : Call → Answer × List Analysis
  | .add now arg summary writable =>
    match arg.refusal? with
    | some r => (.added (.error (.refused r)), log)
    | none =>
      let x := entry log now arg summary
      (.added (if writable then .ok x else .error .unwritable), log ++ [x])
  | .recent n => (.listed (newest log (min n Archive.capacity)).reverse, log)
  | .stats =>
    let shown := newest log Archive.capacity
    (.counted ⟨shown.length, (shown.filter fun x => !x.summary.isValid).length⟩, log)

theorem call_add_of_refusal {log : List Analysis} {r : Refusal} (h : arg.refusal? = some r) (writable : Bool) :
    call log (.add now arg summary writable) = (.added (.error (.refused r)), log) := by
  rw [call, h]

theorem call_add_of_accepted {log : List Analysis} (h : arg.refusal? = none) (writable : Bool) :
    call log (.add now arg summary writable) =
      (.added (if writable then .ok (entry log now arg summary) else .error .unwritable),
        log ++ [entry log now arg summary]) := by
  rw [call, h]

theorem length_newest (log : List Analysis) (n : Nat) : (newest log n).length = min n log.length := by
  rw [newest, List.length_drop]
  omega

/-- the window moves on by one -/
theorem newest_append (log : List Analysis) (x : Analysis) (n : Nat) :
    (newest log n ++ [x]).drop ((newest log n ++ [x]).length - n) = newest (log ++ [x]) n := by
  have hlen : (newest log n ++ [x]).length = min n log.length + 1 := by
    rw [List.length_append, length_newest, List.length_singleton]
  have hmove : newest log n ++ [x] = (log ++ [x]).drop (log.length - n) := by
    rw [newest, List.drop_append_of_le_length (Nat.sub_le _ _)]
  rw [hlen, hmove, List.drop_drop, newest, List.length_append, List.length_singleton]
  congr 1
  omega

/-- the contents of the log are what the calls have taken in, in their order -/
theorem contents_after (calls : List Call) (log : List Analysis) :
    (Call.after call log calls).map (fun x => (x.createdAt, x.argument, x.summary)) =
      log.map (fun x => (x.createdAt, x.argument, x.summary)) ++ calls.filterMap Call.taken? := by
  induction calls generalizing log with
  | nil => simp [Call.after]
  | cons c calls ih =>
    rw [Call.after_cons, ih]
    cases c with
    | add now arg summary writable =>
      cases hr : arg.refusal? with
      | some r =>
        rw [call_add_of_refusal hr]
        simp [Call.taken?, hr]
      | none =>
        rw [call_add_of_accepted hr]
        simp [Call.taken?, hr, entry, Analysis.sealed]
    | recent n => rfl
    | stats => rfl

/-- a call that takes something in makes the log one longer -/
theorem length_call (log : List Analysis) (c : Call) : (call log c).2.length = log.length + c.accepted.toNat := by
  cases c with
  | add now arg summary writable =>
    cases hr : arg.refusal? with
    | some r =>
      rw [call_add_of_refusal hr]
      simp [Call.accepted, hr]
    | none =>
      rw [call_add_of_accepted hr]
      simp [Call.accepted, hr]
  | recent n => rfl
  | stats => rfl

theorem length_after (calls : List Call) (log : List Analysis) :
    (Call.after call log calls).length = log.length + calls.countP Call.accepted := by
  induction calls generalizing log with
  | nil => rfl
  | cons c calls ih =>
    rw [Call.after_cons, ih, length_call, countP_cons_toNat]
    omega

end Log

/-! ## The window -/

namespace Archive

variable {a : Archive} {log : List Analysis}

/-- the archive holds the end of a log whose ids count from 0 on, and its next id goes on counting -/
structure WindowOf (a : Archive) (log : List Analysis) : Prop where
  analyses_eq : a.analyses = Log.newest log capacity
  nextId_eq : a.nextId.toNat = log.length
  ids_log : log.map (fun x => x.id.toNat) = List.range log.length

/-- what an archive shows of a log: the last 1024 of its analyses, with consecutive ids that end right before the next one -/
structure Shows (a : Archive) (log : List Analysis) : Prop where
  analyses_eq : a.analyses = log.drop (log.length - 1024)
  ids_eq : a.analyses.map (fun x => x.id.toNat) = List.range' (log.length - 1024) (min log.length 1024)
  nextId_eq : a.nextId.toNat = log.length
  /-- the newest first -/
  recent_eq (n : Nat) : a.recent n = (log.drop (log.length - min n 1024)).reverse
  length_recent (n : Nat) : (a.recent n).length = min n (min log.length 1024)
  recent_descending (n : Nat) : (a.recent n).Pairwise fun x y => y.id < x.id
  stats_eq : a.stats = ⟨min log.length 1024, (a.analyses.filter fun x => !x.summary.isValid).length⟩

theorem windowOf_empty : empty.WindowOf [] := ⟨rfl, rfl, rfl⟩

namespace WindowOf

/-- the next analysis of the archive is the next one of the log -/
theorem entry_eq (h : a.WindowOf log) : a.entry now arg summary = Log.entry log now arg summary := by
  have hid : a.nextId = UInt64.ofNat log.length := by rw [← h.nextId_eq, UInt64.ofNat_toNat]
  rw [entry, Log.entry, hid]

/-- pushed there, it keeps the window at the end of the log -/
theorem push (h : a.WindowOf log) (hid : log.length + 1 < UInt64.size) :
    (a.push (a.entry now arg summary)).WindowOf (log ++ [Log.entry log now arg summary]) := by
  have hnext : a.nextId.toNat + 1 < UInt64.size := by rw [h.nextId_eq]; exact hid
  rw [h.entry_eq]
  constructor
  · rw [analyses_push, h.analyses_eq, Log.newest_append]
  · rw [toNat_nextId_push hnext, h.nextId_eq, List.length_append, List.length_singleton]
  · have hlast : (Log.entry log now arg summary).id.toNat = log.length := by
      show (UInt64.ofNat log.length).toNat = log.length
      rw [← h.nextId_eq, UInt64.ofNat_toNat]
    rw [List.map_append, h.ids_log, List.length_append, List.length_singleton, List.range_succ, List.map_singleton,
      hlast]

/-- the newest analyses are listed from the end of the log -/
theorem recent_eq (h : a.WindowOf log) (n : Nat) : a.recent n = (Log.newest log (min n capacity)).reverse := by
  rw [recent, h.analyses_eq, List.take_reverse, Log.length_newest]
  simp only [Log.newest]
  rw [List.drop_drop]
  congr 2
  omega

theorem stats_eq (h : a.WindowOf log) : a.stats =
    ⟨(Log.newest log capacity).length, ((Log.newest log capacity).filter fun x => !x.summary.isValid).length⟩ := by
  rw [stats, h.analyses_eq]

/-- the ids in the window are consecutive and end before the next one -/
theorem ids_eq (h : a.WindowOf log) : a.analyses.map (fun x => x.id.toNat) =
    List.range' (log.length - capacity) (min log.length capacity) := by
  have hstart : 0 + (log.length - capacity) * 1 = log.length - capacity := by omega
  have hlen : log.length - (log.length - capacity) = min log.length capacity := by omega
  rw [h.analyses_eq, Log.newest, List.map_drop, h.ids_log, List.range_eq_range', List.drop_range', hstart, hlen]

/-- so they fall in what is listed -/
theorem recent_descending (h : a.WindowOf log) (n : Nat) : (a.recent n).Pairwise fun x y => y.id < x.id := by
  have hasc : (a.analyses.map fun x => x.id.toNat).Pairwise (· < ·) := by
    rw [h.ids_eq]
    exact List.pairwise_lt_range'
  rw [List.pairwise_map] at hasc
  have hdesc : a.analyses.reverse.Pairwise fun x y => y.id < x.id :=
    List.pairwise_reverse.2 (hasc.imp UInt64.lt_iff_toNat_lt.2)
  exact hdesc.take

/-- all that is seen through the window -/
theorem shows (h : a.WindowOf log) : a.Shows log where
  analyses_eq := h.analyses_eq
  ids_eq := h.ids_eq
  nextId_eq := h.nextId_eq
  recent_eq := h.recent_eq
  length_recent n := by
    rw [h.recent_eq, List.length_reverse, Log.length_newest, capacity]
    omega
  recent_descending := h.recent_descending
  stats_eq := by
    rw [stats, h.analyses_eq, Log.length_newest, capacity, Nat.min_comm]

end WindowOf

end Archive

namespace Store

variable {s : Store} {log : List Analysis}

/-! ## Calls -/

/-- a call is answered as the log answers it, and the window stays at the end of the log -/
theorem call_window {c : Call} (h : s.archive.WindowOf log) (hid : log.length + c.accepted.toNat < UInt64.size) :
    (s.call c).1 = (Log.call log c).1 ∧ (s.call c).2.archive.WindowOf (Log.call log c).2 := by
  cases c with
  | add now arg summary writable =>
    cases hr : arg.refusal? with
    | some r =>
      obtain ⟨hanswer, harchive, -⟩ := call_add_of_refusal s now summary hr writable
      rw [Log.call_add_of_refusal hr, hanswer, harchive]
      exact ⟨rfl, h⟩
    | none =>
      obtain ⟨hanswer, harchive⟩ := call_add_of_accepted s now summary hr writable
      have hfull : log.length + 1 < UInt64.size := by simpa [Call.accepted, hr] using hid
      rw [Log.call_add_of_accepted hr, hanswer, harchive]
      exact ⟨by rw [h.entry_eq], h.push hfull⟩
  | recent n => exact ⟨congrArg Answer.listed (h.recent_eq n), h⟩
  | stats => exact ⟨congrArg Answer.counted h.stats_eq, h⟩

/-- the calls of a run, one after the other -/
theorem calls_window {calls : List Call} (h : s.archive.WindowOf log)
    (hid : log.length + calls.countP Call.accepted < UInt64.size) :
    Call.answers Store.call s calls = Call.answers Log.call log calls ∧
      (Call.after Store.call s calls).archive.WindowOf (Call.after Log.call log calls) := by
  induction calls generalizing s log with
  | nil => exact ⟨rfl, h⟩
  | cons c calls ih =>
    rw [countP_cons_toNat] at hid
    obtain ⟨hanswer, hwindow⟩ := call_window (c := c) h (by omega)
    have hlen := Log.length_call log c
    obtain ⟨hanswers, hlast⟩ := ih hwindow (by omega)
    exact ⟨by rw [Call.answers, Call.answers, hanswer, hanswers], hlast⟩

/-- **An open store is a window over an append-only log.** Let a store be opened where nothing stood, and let any calls be
made, each add with the place writable or not, while ids remain. The log has the analysis of each argument that was not
refused, in order; the archive shows the end of it, and all calls on the way were answered as the log answers them. A
refused argument leaves the archive, its next id and the file as they were. -/
theorem window_of_calls (calls : List Call) (hid : calls.countP Call.accepted < UInt64.size) :
    let log := Call.after Log.call [] calls
    let s := Call.after Store.call (ofPlace .vacant) calls
    log.length = calls.countP Call.accepted ∧
      log.map (fun x => (x.createdAt, x.argument, x.summary)) = calls.filterMap Call.taken? ∧
      s.archive.Shows log ∧
      Call.answers Store.call (ofPlace .vacant) calls = Call.answers Log.call [] calls ∧
      ∀ now arg summary r, arg.refusal? = some r → s.add now arg summary = (.error (.refused r), s) := by
  intro log s
  have hlen : log.length = calls.countP Call.accepted := by
    rw [Log.length_after, List.length_nil, Nat.zero_add]
  have hstart : (ofPlace .vacant).archive.WindowOf [] := Archive.windowOf_empty
  have hroom : ([] : List Analysis).length + calls.countP Call.accepted < UInt64.size := by
    rwa [List.length_nil, Nat.zero_add]
  obtain ⟨hanswers, hwindow⟩ := calls_window hstart hroom
  exact ⟨hlen, Log.contents_after calls [], hwindow.shows, hanswers, fun _ _ _ _ hr => add_of_refusal hr⟩

/-- two arguments that are taken in, the second while the place cannot be written, one that is refused, and reading -/
def mixedCalls : List Call :=
  [.add .epoch ⟨["P"], some "P"⟩ ⟨true, .checked, ["P"], 0, ""⟩ true, .recent 2000,
    .add .epoch ⟨["P"], some "Q"⟩ ⟨false, .checked, ["P", "Q"], 1, ""⟩ false, .stats,
    .add .epoch ⟨List.replicate 65 "P", some "P"⟩ ⟨true, .checked, ["P"], 0, ""⟩ true]

/-- the same calls again, until the window has moved on by two -/
def overflowingCalls : List Call := (List.replicate 513 mixedCalls).flatten

theorem window_of_calls_overflowing : overflowingCalls.countP Call.accepted < UInt64.size ∧
    (Call.after Store.call (ofPlace .vacant) overflowingCalls).archive.nextId.toNat = 1026 ∧
    (Call.after Store.call (ofPlace .vacant) overflowingCalls).archive.analyses.map (fun x => x.id.toNat) =
      List.range' 2 1024 := by
  have hcount : overflowingCalls.countP Call.accepted = 1026 := by
    have htwo : mixedCalls.countP Call.accepted = 2 := by decide
    rw [overflowingCalls, List.countP_flatten, List.map_replicate, htwo, List.sum_replicate_nat]
  have hid : overflowingCalls.countP Call.accepted < UInt64.size := by rw [hcount]; decide
  obtain ⟨hlen, -, hshows, -, -⟩ := window_of_calls overflowingCalls hid
  refine ⟨hid, hshows.nextId_eq.trans (hlen.trans hcount), ?_⟩
  have hfirst : 1026 - 1024 = 2 := rfl
  have hmany : min 1026 1024 = 1024 := rfl
  rw [hshows.ids_eq, hlen, hcount, hfirst, hmany]

end Store

end Sequitur
