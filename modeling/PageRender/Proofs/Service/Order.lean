import PageRender.Proofs.Dispatch.Passage
import PageRender.Proofs.Service.Answer

/-!
# Answers in a given order

In which order nodes start and end is not settled by a service, but once it is, so is the answer: a
request gets exactly one in every order in which a walk can come to its end.
-/

namespace PageRender

/-- The order in which nodes are run settles what comes of a walk. -/
lemma Dispatch.Execution.unique {σ τ : Type} {r : Runner σ τ} {world w w' : σ} {moves : List Move}
    {log log' : List LogEntry} {outcome outcome' : Except Fault (List Nat)}
    (h : Execution r world moves log outcome w) (h' : Execution r world moves log' outcome' w') :
    outcome = outcome' ∧ w = w' := by
  cases h with
  | empty hroot =>
    cases h' with
    | empty _ => exact ⟨rfl, rfl⟩
    | ended hroot' _ _ =>
      rw [hroot] at hroot'
      cases hroot'
  | @ended root _ _ d hroot hcourse _ =>
    cases h' with
    | empty hroot' =>
      rw [hroot'] at hroot
      cases hroot
    | @ended root' _ _ d' hroot' hcourse' _ =>
      obtain rfl : root = root' := Option.some.inj (hroot.symm.trans hroot')
      obtain rfl : d = d' := Option.some.inj (hcourse.replay.symm.trans hcourse'.replay)
      exact ⟨rfl, rfl⟩

namespace Service

variable {s : Service} {request : Request} {moves : List Move} {a a' : Except Halt Response}

/-- The answer that a request gets if the nodes are run in a given order. -/
inductive AnswersBy (s : Service) (request : Request) (moves : List Move) :
    Except Halt Response → Prop
  | refused (f : Fault) (h : s.ready request = .error f) :
      AnswersBy s request moves (.error (.fault f))
  | overloaded (ready : Ready) (p : Panic) (h : s.ready request = .ok ready)
      (hload : (s.runner request ready.tree).overload? = some p) :
      AnswersBy s request moves (.error (.panic p))
  | ended (ready : Ready) (log : List LogEntry) (outcome : Except Fault (List Nat)) (pass : Pass)
      (h : s.ready request = .ok ready)
      (hload : (s.runner request ready.tree).overload? = none)
      (hrun : Dispatch.Execution (s.runner request ready.tree) ready.pass moves log outcome pass) :
      AnswersBy s request moves ((answer ready.live ready.mode outcome pass).mapError .fault)

lemma answers_iff : s.Answers request a ↔ ∃ moves, s.AnswersBy request moves a := by
  constructor
  · intro h
    cases h with
    | refused f h => exact ⟨[], .refused f h⟩
    | overloaded ready p h hload => exact ⟨[], .overloaded ready p h hload⟩
    | ended ready moves log outcome pass h hload hrun =>
      exact ⟨moves, .ended ready log outcome pass h hload hrun⟩
  · rintro ⟨moves, h⟩
    cases h with
    | refused f h => exact .refused f h
    | overloaded ready p h hload => exact .overloaded ready p h hload
    | ended ready log outcome pass h hload hrun =>
      exact .ended ready moves log outcome pass h hload hrun

/-- The answer that is given is the one of some order. -/
lemma exists_answersBy_render (s : Service) (request : Request) :
    ∃ moves, s.AnswersBy request moves (s.render request) :=
  answers_iff.mp (s.answers_render request)

lemma AnswersBy.unique (h : s.AnswersBy request moves a) (h' : s.AnswersBy request moves a') :
    a = a' := by
  cases h with
  | refused f hnot =>
    cases h' with
    | refused g hnot' =>
      rw [hnot] at hnot'
      cases hnot'
      rfl
    | _ => simp_all
  | overloaded ready p hready hload =>
    cases h' with
    | overloaded ready' p' hready' hload' =>
      obtain rfl : ready = ready' := Except.ok.inj (hready.symm.trans hready')
      rw [hload] at hload'
      cases hload'
      rfl
    | _ => simp_all
  | ended ready log outcome pass hready hload hrun =>
    cases h' with
    | ended ready' log' outcome' pass' hready' hload' hrun' =>
      obtain rfl : ready = ready' := Except.ok.inj (hready.symm.trans hready')
      obtain ⟨rfl, rfl⟩ := hrun.unique hrun'
      rfl
    | _ => simp_all

end Service

end PageRender
