/-
The two ways to send an argument.

An argument is sent to be tested only, or to be tested and added. In both cases the body is looked at first, for the same
faults in the same order: there is no body, no argument can be read from it, there are too many premises, a premise is too
long, the conclusion is too long. A body with one of them is refused. Any other is fit, and then the argument is tested; all
that can still go wrong when it is to be added is that the file cannot be written.

Adding looks at the sizes of the argument once more. What comes with a fit body has passed that already, so the archive never
refuses it, and no fault of a request is answered as one of the service.

- `Unfit` and `fit_or_unfit`: what can be wrong with a body, in the words of the refusal;
- `Request.argument_eq_error_iff` and `Request.argument_eq_ok_iff`: a request is refused for the faults of its body alone;
- `Service.routes_agree`: what both ways are answered, for every body.
-/
import Sequitur.Proofs.Failures

namespace Sequitur

theorem isLong_iff {formula : String} : isLong formula = true ↔ 1024 < formula.utf8ByteSize := by
  rw [isLong, decide_eq_true_iff, Text.byteSize_toList, maxFormulaSize]

/-! ## Bodies -/

/-- an argument of at most 64 premises whose texts have at most 1024 bytes each -/
structure Argument.Fits (arg : Argument String) : Prop where
  count_le : arg.premises.length ≤ 64
  premise_le : ∀ p ∈ arg.premises, p.utf8ByteSize ≤ 1024
  conclusion_le : ∀ c ∈ arg.conclusion, c.utf8ByteSize ≤ 1024

/-- what is wrong with a body, in words; each fault is named only if those before it are not there -/
inductive Unfit : Option String → String → Prop where
  | missing : Unfit none "Content type error"
  | unreadable {text : String} : Argument.read? text = none → Unfit (some text) "Json deserialize error"
  | manyPremises {text : String} {arg : Argument String} : Argument.read? text = some arg → 64 < arg.premises.length →
      Unfit (some text) (toString arg.premises.length ++ " premises given, at most 64 are accepted")
  | longPremise {text p : String} {arg : Argument String} : Argument.read? text = some arg →
      arg.premises.length ≤ 64 → p ∈ arg.premises → 1024 < p.utf8ByteSize →
        Unfit (some text) "Analysis premise exceeds size limit of 1024"
  | longConclusion {text c : String} {arg : Argument String} : Argument.read? text = some arg →
      arg.premises.length ≤ 64 → (∀ p ∈ arg.premises, p.utf8ByteSize ≤ 1024) → arg.conclusion = some c →
        1024 < c.utf8ByteSize → Unfit (some text) "Analysis conclusion exceeds size limit of 1024"

/-- an argument that fits is read from the body -/
def Fit (body : Option String) (arg : Argument String) : Prop :=
  ∃ text, body = some text ∧ Argument.read? text = some arg ∧ arg.Fits

/-! ## Sizes -/

theorem Refusal.message_tooManyPremises (count : Nat) :
    (tooManyPremises count).message = toString count ++ " premises given, at most 64 are accepted" := by
  have hwords : " premises given, at most " ++ (toString maxPremises ++ " are accepted") =
      " premises given, at most 64 are accepted" := by decide
  calc (tooManyPremises count).message
      = toString count ++ " premises given, at most " ++ toString maxPremises ++ " are accepted" := rfl
    _ = toString count ++ " premises given, at most " ++ (toString maxPremises ++ " are accepted") := String.append_assoc
    _ = toString count ++ (" premises given, at most " ++ (toString maxPremises ++ " are accepted")) := String.append_assoc
    _ = _ := by rw [hwords]

namespace Argument

variable {arg : Argument String} {text message : String}

theorem any_isLong_iff : arg.premises.any isLong = true ↔ ∃ p ∈ arg.premises, 1024 < p.utf8ByteSize := by
  simp only [List.any_eq_true, isLong_iff]

theorem conclusion_isLong_iff :
    arg.conclusion.any isLong = true ↔ ∃ c, arg.conclusion = some c ∧ 1024 < c.utf8ByteSize := by
  simp only [Option.any_eq_true, isLong_iff]

theorem refusal?_of_manyPremises (h : 64 < arg.premises.length) :
    arg.refusal? = some (.tooManyPremises arg.premises.length) := if_pos h

theorem refusal?_of_longPremise (hcount : arg.premises.length ≤ 64) (h : ∃ p ∈ arg.premises, 1024 < p.utf8ByteSize) :
    arg.refusal? = some .longPremise := by
  have hcount' : ¬ maxPremises < arg.premises.length := Nat.not_lt.2 hcount
  rw [refusal?, if_neg hcount', if_pos (any_isLong_iff.2 h)]

theorem refusal?_of_longConclusion (hcount : arg.premises.length ≤ 64)
    (hpremises : ∀ p ∈ arg.premises, p.utf8ByteSize ≤ 1024)
    (h : ∃ c, arg.conclusion = some c ∧ 1024 < c.utf8ByteSize) : arg.refusal? = some .longConclusion := by
  have hcount' : ¬ maxPremises < arg.premises.length := Nat.not_lt.2 hcount
  have hshort : ¬ arg.premises.any isLong = true := by
    rw [any_isLong_iff]
    rintro ⟨p, hp, hlong⟩
    exact absurd hlong (Nat.not_lt.2 (hpremises p hp))
  rw [refusal?, if_neg hcount', if_neg hshort, if_pos (conclusion_isLong_iff.2 h)]

theorem Fits.refusal?_eq (h : arg.Fits) : arg.refusal? = none := by
  have hcount : ¬ maxPremises < arg.premises.length := Nat.not_lt.2 h.count_le
  have hpremises : ¬ arg.premises.any isLong = true := by
    rw [any_isLong_iff]
    rintro ⟨p, hp, hlong⟩
    exact absurd hlong (Nat.not_lt.2 (h.premise_le p hp))
  have hconclusion : ¬ arg.conclusion.any isLong = true := by
    rw [conclusion_isLong_iff]
    rintro ⟨c, hc, hlong⟩
    exact absurd hlong (Nat.not_lt.2 (h.conclusion_le c hc))
  rw [refusal?, if_neg hcount, if_neg hpremises, if_neg hconclusion]

end Argument

/-- the faults leave nothing out -/
theorem fit_or_unfit (body : Option String) : (∃ message, Unfit body message) ∨ ∃ arg, Fit body arg := by
  cases body with
  | none => exact .inl ⟨_, .missing⟩
  | some text =>
    cases hread : Argument.read? text with
    | none => exact .inl ⟨_, .unreadable hread⟩
    | some arg =>
      rcases Nat.lt_or_ge 64 arg.premises.length with hcount | hcount
      · exact .inl ⟨_, .manyPremises hread hcount⟩
      · by_cases hpremise : ∃ p ∈ arg.premises, 1024 < p.utf8ByteSize
        · obtain ⟨p, hp, hlong⟩ := hpremise
          exact .inl ⟨_, .longPremise hread hcount hp hlong⟩
        · have hpremises : ∀ p ∈ arg.premises, p.utf8ByteSize ≤ 1024 :=
            fun p hp => Nat.not_lt.1 fun hlong => hpremise ⟨p, hp, hlong⟩
          by_cases hconclusion : ∃ c ∈ arg.conclusion, 1024 < c.utf8ByteSize
          · obtain ⟨c, hc, hlong⟩ := hconclusion
            exact .inl ⟨_, .longConclusion hread hcount hpremises hc hlong⟩
          · exact .inr ⟨arg, text, rfl, hread, hcount, hpremises,
              fun c hc => Nat.not_lt.1 fun hlong => hconclusion ⟨c, hc, hlong⟩⟩

/-! ## Requests -/

namespace Request

variable {r : Request} {arg : Argument String} {message : String}

theorem argument_of_fit (h : Fit r.body arg) : r.argument = .ok arg := by
  obtain ⟨text, hbody, hread, hfits⟩ := h
  simp only [argument, hbody, hread, hfits.refusal?_eq]

theorem argument_of_unfit (h : Unfit r.body message) : r.argument = .error message := by
  unfold argument
  generalize r.body = body at h
  cases h with
  | missing => rfl
  | unreadable hread => simp only [hread]
  | manyPremises hread hcount =>
    simp only [hread, Argument.refusal?_of_manyPremises hcount, Refusal.message_tooManyPremises]
  | longPremise hread hcount hp hlong =>
    simp only [hread, Argument.refusal?_of_longPremise hcount ⟨_, hp, hlong⟩]
    rfl
  | longConclusion hread hcount hpremises hc hlong =>
    simp only [hread, Argument.refusal?_of_longConclusion hcount hpremises ⟨_, hc, hlong⟩]
    rfl

/-- a request is refused for the faults of its body alone -/
theorem argument_eq_error_iff : r.argument = .error message ↔ Unfit r.body message := by
  refine ⟨?_, argument_of_unfit⟩
  intro h
  rcases fit_or_unfit r.body with ⟨message', hunfit⟩ | ⟨arg, hfit⟩
  · rw [argument_of_unfit hunfit] at h
    exact Except.error.inj h ▸ hunfit
  · rw [argument_of_fit hfit] at h
    cases h

theorem argument_eq_ok_iff : r.argument = .ok arg ↔ Fit r.body arg := by
  refine ⟨?_, argument_of_fit⟩
  intro h
  rcases fit_or_unfit r.body with ⟨message, hunfit⟩ | ⟨arg', hfit⟩
  · rw [argument_of_unfit hunfit] at h
    cases h
  · rw [argument_of_fit hfit] at h
    exact Except.ok.inj h ▸ hfit

end Request

/-! ## Answers -/

/-- a POST request for a path -/
structure Request.Posts (r : Request) (path : String) (body : Option String) : Prop where
  method_eq : r.method = "POST"
  path_eq : r.path = path
  body_eq : r.body = body

namespace Service

variable {s : Service} {r : Request} {arg : Argument String} {message : String}

/-- a request to test an argument is a test -/
theorem handle_testing (hm : r.method = "POST") (hp : r.path = "/validate-logic") : s.handle r = (s.validate r, s) := by
  simp [handle, hm, hp]

theorem validate_of_fit (h : Fit r.body arg) : s.validate r = .json (arg.check s.limits).report := by
  rw [validate, Request.argument_of_fit h]

theorem validate_eq_refused_iff : s.validate r = .refused message ↔ Unfit r.body message := by
  rw [← Request.argument_eq_error_iff, validate]
  cases r.argument with
  | error message' => rw [Response.refused.injEq, Except.error.injEq]
  | ok arg =>
    refine iff_of_false ?_ ?_
    · intro h
      cases h
    · intro h
      cases h

/-- the service is at fault where the body is fit and the file cannot be written, and nowhere else -/
theorem analyse_eq_failed_iff :
    (s.analyse r).1 = .failed ↔ (∃ arg, Fit r.body arg) ∧ s.store.place.writable = false := by
  refine ⟨?_, ?_⟩
  · intro h
    rcases s.analyse_cases r with ⟨message, heq⟩ | ⟨arg, hr, ⟨body, heq⟩ | ⟨hw, -⟩⟩
    · rw [heq] at h
      cases h
    · rw [heq] at h
      cases h
    · exact ⟨⟨arg, Request.argument_eq_ok_iff.1 hr⟩, hw⟩
  · rintro ⟨⟨arg, hfit⟩, hw⟩
    rw [analyse_of_not_writable (Request.argument_of_fit hfit) hw]

theorem analyse_eq_refused_iff : (s.analyse r).1 = .refused message ↔ Unfit r.body message := by
  rw [← Request.argument_eq_error_iff]
  cases hr : r.argument with
  | error message' => rw [analyse, hr, Response.refused.injEq, Except.error.injEq]
  | ok arg =>
    have hrefused : (s.analyse r).1 ≠ .refused message := by
      intro h
      cases hw : s.store.place.writable with
      | true =>
        rw [analyse_of_writable hr hw] at h
        cases h
      | false =>
        rw [analyse_of_not_writable hr hw] at h
        cases h
    refine iff_of_false hrefused ?_
    intro h
    cases h

/-- the archive takes in what comes with a fit body, whatever it holds and wherever it is saved -/
theorem add_ne_refused {body : Option String} (h : Fit body arg) (store : Store) (now : Instant) (summary : Summary)
    (refusal : Refusal) : (store.add now arg summary).1 ≠ .error (.refused refusal) := by
  obtain ⟨text, -, -, hfits⟩ := h
  intro hadd
  cases hw : store.place.writable with
  | true =>
    rw [Store.add_of_writable hfits.refusal?_eq hw] at hadd
    cases hadd
  | false =>
    rw [Store.add_of_not_writable hfits.refusal?_eq hw] at hadd
    cases hadd

/-! ## Both ways -/

/-- how a service answers one body, sent to be tested and sent to be added -/
structure Routed (s : Service) (body : Option String) (tested added : Response) : Prop where
  /-- both are refused for what is wrong with the body, and in the same words -/
  tested_refused_iff : ∀ message, tested = .refused message ↔ Unfit body message
  added_refused_iff : ∀ message, added = .refused message ↔ Unfit body message
  /-- every other body holds an argument -/
  fit_or_unfit : (∃ message, Unfit body message) ∨ ∃ arg, Fit body arg
  /-- the test is answered with what testing it comes to -/
  tested_eq : ∀ arg, Fit body arg → tested = .json (arg.check s.limits).report
  /-- and so is the addition, if the file can be written -/
  added_eq : ∀ arg, Fit body arg → s.store.place.writable = true →
    added = .json (.obj [("id", .nat s.store.archive.nextId.toNat), ("createdAt", .str s.clock.render),
      ("logic", (arg.check s.limits).report)])
  added_failed_iff : added = .failed ↔ (∃ arg, Fit body arg) ∧ s.store.place.writable = false
  /-- the archive refuses no argument that comes with a fit body -/
  taken_in : ∀ arg, Fit body arg → ∀ (store : Store) (now : Instant) (summary : Summary) (refusal : Refusal),
    (store.add now arg summary).1 ≠ .error (.refused refusal)

/-- **Both ways agree.** Whatever the body, the request to test it and the request to add it are refused in the same cases
and in the same words. All other bodies hold an argument, and what testing it comes to is the answer to the one and stands
in the answer to the other, which fails just if the file cannot be written: no fault of a request is taken for one of the
service. -/
theorem routes_agree (s : Service) {test add : Request} {body : Option String} (htest : test.Posts "/validate-logic" body)
    (hadd : add.Posts "/analyses" body) : s.Routed body (s.handle test).1 (s.handle add).1 := by
  have htested : (s.handle test).1 = s.validate test := by rw [handle_testing htest.method_eq htest.path_eq]
  have hadded : (s.handle add).1 = (s.analyse add).1 := by rw [handle_adding hadd.method_eq hadd.path_eq]
  rw [htested, hadded]
  constructor
  case tested_refused_iff => exact fun message => htest.body_eq ▸ validate_eq_refused_iff
  case added_refused_iff => exact fun message => hadd.body_eq ▸ analyse_eq_refused_iff
  case fit_or_unfit => exact Sequitur.fit_or_unfit body
  case tested_eq => exact fun arg hfit => validate_of_fit (htest.body_eq ▸ hfit)
  case added_eq =>
    intro arg hfit hw
    rw [analyse_of_writable (Request.argument_of_fit (hadd.body_eq ▸ hfit)) hw]
  case added_failed_iff => exact hadd.body_eq ▸ analyse_eq_failed_iff
  case taken_in => exact fun arg => add_ne_refused

/-- an argument is read back, so its body is fit if it fits -/
theorem fit_report (h : arg.Fits) : Fit (some arg.report.render) arg :=
  ⟨_, rfl, Argument.read?_render arg, h⟩

/-- a service that cannot write tests an argument that it cannot add -/
theorem routes_agree_blocked :
    Request.Posts ⟨"POST", "/validate-logic", some nonSequitur.report.render⟩ "/validate-logic"
        (some nonSequitur.report.render) ∧
      (Request.adding nonSequitur).Posts "/analyses" (some nonSequitur.report.render) ∧
      ((ofPlace .blocked).handle ⟨"POST", "/validate-logic", some nonSequitur.report.render⟩).1 =
        .json (nonSequitur.check .standard).report ∧
      ((ofPlace .blocked).handle (.adding nonSequitur)).1 = .failed ∧
      ∀ message, ¬ Unfit (some nonSequitur.report.render) message := by
  have htest : Request.Posts ⟨"POST", "/validate-logic", some nonSequitur.report.render⟩ "/validate-logic"
      (some nonSequitur.report.render) := ⟨rfl, by decide, rfl⟩
  have hadd : (Request.adding nonSequitur).Posts "/analyses" (some nonSequitur.report.render) := ⟨rfl, by decide, rfl⟩
  have hrouted := routes_agree (ofPlace .blocked) htest hadd
  have hfit : Fit (some nonSequitur.report.render) nonSequitur := fit_report ⟨by decide, by decide, by decide⟩
  have hfailed := hrouted.added_failed_iff.2 ⟨⟨_, hfit⟩, rfl⟩
  refine ⟨htest, hadd, hrouted.tested_eq _ hfit, hfailed, ?_⟩
  intro message hunfit
  cases hfailed.symm.trans ((hrouted.added_refused_iff message).2 hunfit)

end Service

end Sequitur
