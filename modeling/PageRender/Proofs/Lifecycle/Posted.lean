import PageRender.Proofs.Lifecycle.Blackboard

/-!
# What an operation leaves on the blackboard

Nothing that has been written on the blackboard is taken back when a render halts. At the end of a
render it is as the operation has left it, however the operation has ended, apart from what the kind
changes when it finishes up.
-/

namespace PageRender

namespace Kind

variable {M γ : Type} {kind : Kind M} {name : String} {input : Input} {model : M}
  {start board : Blackboard} {c : Component} {hooks : List Hook} {shown : Option Bool}
  {result : Except Halt Unit} {left : Bench Component}

/-- If the model can be decoded and the component shows, then the first part of the render leaves on
the blackboard what the operation has left there. -/
lemma Attempted.blackboard_eq (h : kind.Attempted name input c start hooks shown result left)
    (hdecode : kind.decode kind.fresh c input.params = .ok model)
    (hvisible : (kind.visible (input.context name) model).run.run start = (.ok true, board)) :
    left.blackboard =
      ((kind.dispatch (input.context name)).run.run ⟨model, board⟩).2.blackboard := by
  cases h with
  | undecoded hdecode' => cases hdecode.symm.trans hdecode'
  | unjudged hdecode' hvisible' =>
    cases hdecode.symm.trans hdecode'
    cases hvisible.symm.trans hvisible'
  | unhandled hdecode' hvisible' hoperated =>
    cases hdecode.symm.trans hdecode'
    cases hvisible.symm.trans hvisible'
    rw [hoperated.run_dispatch]
  | unencoded hdecode' hvisible' hoperated =>
    cases hdecode.symm.trans hdecode'
    cases hvisible.symm.trans hvisible'
    rw [hoperated.run_dispatch]
  | complete hdecode' hvisible' hoperated =>
    cases hdecode.symm.trans hdecode'
    cases hvisible.symm.trans hvisible'
    rw [hoperated.run_dispatch]

/-- However an operation ends, and whatever comes of the render: a part of the blackboard that the
kind leaves alone when it finishes up is in the end as the operation has left it. -/
theorem part_of_render (part : Blackboard → γ)
    (hdecode : kind.decode kind.fresh c.normalize input.params = .ok model)
    (hvisible : (kind.visible (input.context c.name) model).run.run start = (.ok true, board))
    (hfinish : Leaves (fun bench => part bench.blackboard)
      (kind.finish (input.context c.name))) :
    part ((kind.renderer.render input).run.run ⟨c, start⟩).2.blackboard =
      part ((kind.dispatch (input.context c.name)).run.run ⟨model, board⟩).2.blackboard := by
  obtain ⟨hooks, report, after, hrendered⟩ := kind.exists_rendered input c start
  rw [hrendered.run]
  -- After a panic the kind does not finish up at all.
  cases hrendered with
  | broken hattempted => exact congrArg part (hattempted.blackboard_eq hdecode hvisible)
  | unfinished hattempted _ hend =>
    exact (hfinish.eq_of_run hend).trans (congrArg part (hattempted.blackboard_eq hdecode hvisible))
  | finished hattempted _ hend =>
    exact (hfinish.eq_of_run hend).trans (congrArg part (hattempted.blackboard_eq hdecode hvisible))

end Kind

end PageRender
