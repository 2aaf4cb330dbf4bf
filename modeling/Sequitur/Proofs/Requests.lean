/-
Requests, read and answered.

A request to add an argument has three ends. It may be at fault, and then nothing has been done. Otherwise its argument has
been taken in, so the archive will not refuse it, and whether the place can be written decides between an answer and a
failure. All other requests only read.

- `Argument.read?_render`: an argument that was written is read back, so every one that is taken in can be sent;
- `Service.analyse_cases`: the three ends of an addition;
- `Service.handle_adding`, `Service.handle_analyses` and `Service.handle_stats`: which answers requests get.
-/
import Sequitur.Archive.RoundTrip
import Sequitur.Proofs.Runs
import Sequitur.Service

namespace Sequitur

/-! ## Arguments in requests -/

namespace Argument

/-- an argument as the body of a request -/
def report (arg : Argument String) : Json :=
  .obj [("premises", .strs arg.premises), ("conclusion", .ofOption .str arg.conclusion)]

theorem plain_report (arg : Argument String) : arg.report.Plain := by
  simp only [report, Json.Plain, Json.PlainFields, and_true]
  exact ⟨Json.plain_strs _, Json.plain_ofOption (f := .str) (fun _ => trivial) _⟩

theorem ofJson?_report (arg : Argument String) : ofJson? arg.report = some arg := by
  have hr : arg.report.record? ["premises", "conclusion"] =
      some [some (.strs arg.premises), some (.ofOption .str arg.conclusion)] := by
    simp [report, Json.record?, List.lookup_cons]
  rw [ofJson?, hr]
  simp [Json.required, Json.list?_strs, Json.optional_str]

/-- a written argument reads back -/
theorem read?_render (arg : Argument String) : read? arg.report.render = some arg := by
  rw [read?, Json.read?_render arg.plain_report, Option.bind_some, ofJson?_report]

end Argument

namespace Request

variable {r : Request} {arg : Argument String}

/-- asks to add an argument -/
def adding (arg : Argument String) : Request := ⟨"POST", "/analyses", some arg.report.render⟩

/-- asks for the totals -/
def totals : Request := ⟨"GET", "/stats", none⟩

/-- what is not refused is read from the request that was made of it -/
theorem argument_adding (h : arg.refusal? = none) : (adding arg).argument = .ok arg := by
  simp only [argument, adding, Argument.read?_render, h]

/-- and what is refused comes back with the reason -/
theorem argument_adding_of_refusal {refusal : Refusal} (h : arg.refusal? = some refusal) :
    (adding arg).argument = .error refusal.message := by
  simp only [argument, adding, Argument.read?_render, h]

/-- what a request is read as is taken in -/
theorem refusal?_of_argument (h : r.argument = .ok arg) : arg.refusal? = none := by
  unfold argument at h
  split at h
  · cases h
  · split at h
    · cases h
    · split at h
      · cases h
      · cases h
        assumption

end Request

/-! ## Answers -/

namespace Service

variable {s : Service} {r : Request} {arg : Argument String}

/-- where the place cannot be written, an addition is answered with a failure -/
theorem analyse_of_not_writable (hr : r.argument = .ok arg) (hw : s.store.place.writable = false) :
    s.analyse r = (.failed, { s with store := (s.store.add s.clock arg (arg.check s.limits).summary).2 }) := by
  rw [analyse, hr]
  simp only [Store.add_of_not_writable (Request.refusal?_of_argument hr) hw]

/-- elsewhere it is answered with the id, the instant and what testing the argument comes to -/
theorem analyse_of_writable (hr : r.argument = .ok arg) (hw : s.store.place.writable = true) : s.analyse r =
    (.json (.obj [("id", .nat s.store.archive.nextId.toNat), ("createdAt", .str s.clock.render),
        ("logic", (arg.check s.limits).report)]),
      { s with store := (s.store.add s.clock arg (arg.check s.limits).summary).2 }) := by
  rw [analyse, hr]
  simp only [Store.add_of_writable (Request.refusal?_of_argument hr) hw]
  rfl

/-- the three ends of an addition -/
theorem analyse_cases (s : Service) (r : Request) :
    (∃ message, s.analyse r = (.refused message, s)) ∨
      ∃ arg, r.argument = .ok arg ∧
        ((∃ body, s.analyse r =
            (.json body, { s with store := (s.store.add s.clock arg (arg.check s.limits).summary).2 })) ∨
          s.store.place.writable = false ∧
            s.analyse r = (.failed, { s with store := (s.store.add s.clock arg (arg.check s.limits).summary).2 })) := by
  cases hr : r.argument with
  | error message => exact .inl ⟨message, by rw [analyse, hr]⟩
  | ok arg =>
    refine .inr ⟨arg, rfl, ?_⟩
    cases hw : s.store.place.writable with
    | true => exact .inl ⟨_, analyse_of_writable hr hw⟩
    | false => exact .inr ⟨rfl, analyse_of_not_writable hr hw⟩

/-- an addition changes the store alone -/
theorem limits_analyse (s : Service) (r : Request) : (s.analyse r).2.limits = s.limits := by
  rcases s.analyse_cases r with ⟨message, heq⟩ | ⟨arg, -, ⟨body, heq⟩ | ⟨-, heq⟩⟩ <;> rw [heq]

/-- a request to add an argument is an addition -/
theorem handle_adding (hm : r.method = "POST") (hp : r.path = "/analyses") : s.handle r = s.analyse r := by
  simp [handle, hm, hp]

/-- every other request leaves the service as it is -/
theorem handle_of_not_adding (h : ¬ (r.method = "POST" ∧ r.path = "/analyses")) : (s.handle r).2 = s := by
  simp only [handle]
  repeat' split
  all_goals first | rfl | exact absurd ⟨‹_›, ‹_›⟩ h

theorem handle_cases (s : Service) (r : Request) : (s.handle r).2 = s ∨ s.handle r = s.analyse r := by
  by_cases hadding : r.method = "POST" ∧ r.path = "/analyses"
  · exact .inr (handle_adding hadding.1 hadding.2)
  · exact .inl (handle_of_not_adding hadding)

/-- what reading the newest analyses is answered -/
theorem handle_analyses (hm : r.method = "GET") (hp : r.path = "/analyses") :
    s.handle r = (.json (.arr ((s.store.archive.recent recentCount).map Analysis.report)), s) := by
  simp [handle, hm, hp]

/-- what reading the totals is answered -/
theorem handle_stats (hm : r.method = "GET") (hp : r.path = "/stats") :
    s.handle r = (.json s.store.archive.stats.report, s) := by
  simp [handle, hm, hp]

end Service

end Sequitur
