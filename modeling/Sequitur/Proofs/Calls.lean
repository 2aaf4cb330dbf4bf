/-
What an open store is asked, and what it answers.

As long as it stays open, a store is asked to add arguments, to list its newest analyses and to say how many it has. A call
says of the place whether it can be written then. The answers to a run of calls are all that is seen of a store from
outside.

`Store.call_add_of_refusal` and `Store.call_add_of_accepted` say what adding does to the archive: whether the place can be
written decides on the answer alone.
-/
import Sequitur.Proofs.Runs

namespace Sequitur

/-- what is asked of an open store -/
inductive Call where
  /-- an argument is added, while the place can be written or not -/
  | add (now : Instant) (arg : Argument String) (summary : Summary) (writable : Bool)
  | recent (n : Nat)
  | stats

/-- what a call is answered -/
inductive Answer where
  | added (result : Except StoreError Analysis)
  | listed (analyses : List Analysis)
  | counted (stats : Stats)

namespace Call

/-- an id is used up -/
def accepted : Call → Bool
  | add _ arg _ _ => arg.refusal?.isNone
  | recent _ => false
  | stats => false

variable {σ : Type}

/-- the state that a run of calls ends in -/
def after (call : σ → Call → Answer × σ) (s : σ) (calls : List Call) : σ := calls.foldl (fun s c => (call s c).2) s

/-- what the calls of a run are answered, one after the other -/
def answers (call : σ → Call → Answer × σ) (s : σ) : List Call → List Answer
  | [] => []
  | c :: calls => (call s c).1 :: answers call (call s c).2 calls

theorem after_cons (call : σ → Call → Answer × σ) (s : σ) (c : Call) (calls : List Call) :
    after call s (c :: calls) = after call (call s c).2 calls := rfl

end Call

namespace Store

variable (s : Store) (now : Instant) {arg : Argument String} (summary : Summary)

/-- answers a call -/
def call (s : Store) : Call → Answer × Store
  | .add now arg summary writable =>
    let (result, next) := { s with place := { s.place with writable := writable } }.add now arg summary
    (.added result, next)
  | .recent n => (.listed (s.archive.recent n), s)
  | .stats => (.counted s.archive.stats, s)

/-- a refused argument leaves archive and file alone -/
theorem call_add_of_refusal {r : Refusal} (h : arg.refusal? = some r) (writable : Bool) :
    (s.call (.add now arg summary writable)).1 = .added (.error (.refused r)) ∧
      (s.call (.add now arg summary writable)).2.archive = s.archive ∧
      (s.call (.add now arg summary writable)).2.place.content = s.place.content := by
  rw [call, add_of_refusal h]
  exact ⟨rfl, rfl, rfl⟩

/-- any other one is pushed, whether the archive can be saved then or not -/
theorem call_add_of_accepted (h : arg.refusal? = none) (writable : Bool) :
    (s.call (.add now arg summary writable)).1 =
        .added (if writable then .ok (s.archive.entry now arg summary) else .error .unwritable) ∧
      (s.call (.add now arg summary writable)).2.archive =
        s.archive.push (s.archive.entry now arg summary) := by
  cases writable with
  | true =>
    rw [call, add_of_writable h rfl]
    exact ⟨rfl, rfl⟩
  | false =>
    rw [call, add_of_not_writable h rfl]
    exact ⟨rfl, rfl⟩

end Store

end Sequitur
