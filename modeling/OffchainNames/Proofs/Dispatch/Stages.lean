import OffchainNames.Gateway

/-!
# Stages one after the other

A gateway whose dispatch answers takes the answer through its stages (`Gateway.run_handle_of_answered`),
and a stage that hands on a response leaves the rest to the stages after it
(`Stage.run_processAll_of_ok`). What every stage keeps in the world, all of them keep
(`Gateway.run_handle_preserves`), and so they do with what every stage hands on in a response
(`Stage.answered_of_processAll`).
-/

namespace OffchainNames

variable {σ : Type} [Store σ] {call : Call} {response : Response} {w w' : World σ}

namespace Stage

@[simp] theorem run_processAll_nil (call : Call) (response : Response) (w : World σ) :
    (processAll [] call response).run w = (.answered response, w) := rfl

/-- After a stage that hands on a response the other stages work on that response. -/
theorem run_processAll_of_ok {stage : Stage} {handedOn : Response}
    (h : (stage.process call response).run w = (.answered (.ok handedOn), w')) (rest : List Stage) :
    (processAll (stage :: rest) call response).run w = (processAll rest call handedOn).run w' := by
  rw [processAll, Course.run_bind, h]

/-- What every stage keeps, all of them keep. -/
theorem run_processAll_preserves {I : World σ → Prop} {stages : List Stage}
    (step : ∀ stage ∈ stages, ∀ call response w, I w → I ((stage.process call response).run w).2)
    (h : I w) : I ((processAll stages call response).run w).2 := by
  induction stages generalizing response w with
  | nil => exact h
  | cons stage rest ih =>
    have kept := step stage (List.mem_cons_self ..) call response w h
    rw [processAll, Course.run_bind]
    split
    · exact ih (fun stage member => step stage (List.mem_cons_of_mem _ member)) kept
    · exact kept
    · exact kept
    · exact kept

/-- What errors have and every stage hands on from the response that it is given, the response after all
stages has. -/
theorem answered_of_processAll {P : Response → Prop} {stages : List Stage} {handedOn : Response}
    (step : ∀ stage ∈ stages, ∀ call response next w, P response →
      ((stage.process call response).run (w : World σ)).1 = .answered (.ok next) → P next)
    (failed : ∀ e, P (.ofError e)) (given : P response)
    (h : ((processAll stages call response).run w).1 = .answered handedOn) : P handedOn := by
  induction stages generalizing response w with
  | nil =>
    cases h
    exact given
  | cons stage rest ih =>
    rw [processAll, Course.run_bind] at h
    split at h
    · rename_i next ending
      exact ih (fun stage member => step stage (List.mem_cons_of_mem _ member))
        (step stage (List.mem_cons_self ..) call response next w given ending) h
    · cases h
      exact failed _
    · cases h
    · cases h

end Stage

/-- What the world of the dispatch has and every stage keeps, the world after the call has. -/
theorem Gateway.run_handle_preserves {g : Gateway} {I : World σ → Prop}
    (step : ∀ stage ∈ g.stages, ∀ call response w, I w → I ((stage.process call response).run w).2)
    (h : I ((g.table.plan (.ofCall call)).course.run w).2) : I ((g.handle call).run w).2 := by
  rw [handle, Table.dispatch, Course.run_bind]
  split
  · exact Stage.run_processAll_preserves step h
  · exact h
  · exact h

/-- A call whose dispatch answers ends as the stages end the answer. -/
theorem Gateway.run_handle_of_answered {g : Gateway}
    (h : (g.table.plan (.ofCall call)).course.run w = (.answered response, w')) :
    (g.handle call).run w = (Stage.processAll g.stages call response).run w' := by
  rw [handle, Table.dispatch, Course.run_bind, h]

end OffchainNames
