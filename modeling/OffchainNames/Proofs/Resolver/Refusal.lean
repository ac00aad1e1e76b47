import OffchainNames.Proofs.Resolver.WriteSafety
import OffchainNames.Proofs.Store.Backend

/-!
# Refused calls leave no trace

A call that is not answered with success leaves the store as it was, and so does every call inside a
batch, whatever the rows of the store hold (`Resolver.store_unchanged_of_refused`). A function writes in
one change, which the store makes or not, and has nothing to refuse after it; a batch is always answered
with success, whatever its slots end with.
-/

namespace OffchainNames

namespace Resolver

variable {r : Resolver} {ctx : Context} {w w' : World Backend} {response : Response}

/-- A function that is not answered with success leaves the store as it was. -/
theorem store_run_handler_of_refused {op : Operation} {args : Arguments}
    (answered : ((r.handler op ctx args).run w).1.ending op.signature = .answered response)
    (refused : response.status ≠ 200) : ((r.handler op ctx args).run w).2.store = w.store := by
  have effect := r.effect_handler op ctx args w
  generalize (r.handler op ctx args).run w = ran at effect answered ⊢
  cases effect with
  | refused status kept => exact kept
  | answered requested found => rfl
  | rejected requested unobjected permitted applied => exact Backend.eq_of_apply_error applied
  | changed requested unobjected permitted applied =>
    -- Nothing is left to fail once the change is made: no results always pack.
    rw [ending_reply_empty] at answered
    cases answered
    exact absurd rfl refused

/-- A plan inside the plan of a call that is not answered with success leaves the store as it was. -/
theorem store_run_course_of_refused {levels : Nat} {plan : Plan}
    (inside : plan ∈ (r.table.planAt levels ctx).subplans)
    (answered : plan.course.run w = (.answered response, w')) (refused : response.status ≠ 200) :
    w'.store = w.store := by
  cases plan with
  | refused ctx' cause =>
    rw [Plan.run_course_refused] at answered
    cases answered
    rfl
  | invoke ctx' signature handler args =>
    obtain ⟨-, op, payload, rfl, rfl, -, -⟩ := invoked_of_mem_subplans inside
    rw [Plan.run_course_invoke] at answered
    obtain ⟨ended, rfl⟩ := Prod.mk.inj answered
    exact store_run_handler_of_refused ended refused
  | batch ctx' signature slots =>
    obtain ⟨inner, ctx'', -, hplan⟩ := Table.of_mem_subplans_planAt inside
    obtain rfl := r.built_table.signature_of_planAt hplan.symm
    -- A batch is answered with success, even if all its slots are refused.
    obtain ⟨responses, -, rfl⟩ :=
      Plan.run_course_batch_eq_answered_iff.mp (congrArg Prod.fst answered)
    exact absurd rfl refused

theorem run_subplan_answered {levels : Nat} {plan : Plan}
    (inside : plan ∈ (r.table.planAt levels ctx).subplans) (w : World Backend) :
    ∃ response w', plan.course.run w = (.answered response, w') := by
  obtain ⟨inner, ctx', -, rfl⟩ := Table.of_mem_subplans_planAt inside
  obtain ⟨response, answered⟩ := r.run_planAt_answered inner ctx' w
  exact ⟨response, _, Prod.ext answered rfl⟩

/-- Every call is answered, and if the answer is no success, the store is as it was before. The same holds
of every call inside a batch, for the store in which the call starts. -/
theorem store_unchanged_of_refused (r : Resolver) (ctx : Context) (w : World Backend) :
    (∃ response w', (r.table.dispatch ctx).run w = (.answered response, w') ∧
      (response.status ≠ 200 → w'.store = w.store)) ∧
    ∀ plan before, (plan, before) ∈ (r.table.plan ctx).visits w →
      ∃ response after, plan.course.run before = (.answered response, after) ∧
        (response.status ≠ 200 → after.store = before.store) := by
  have all : ∀ (plan : Plan) (before : World Backend), plan ∈ (r.table.plan ctx).subplans →
      ∃ response after, plan.course.run before = (.answered response, after) ∧
        (response.status ≠ 200 → after.store = before.store) := by
    intro plan before inside
    obtain ⟨response, after, answered⟩ := run_subplan_answered inside before
    exact ⟨response, after, answered, store_run_course_of_refused inside answered⟩
  refine ⟨all (r.table.plan ctx) w (Plan.mem_subplans_self _), ?_⟩
  intro plan before visited
  exact all plan before (Plan.mem_subplans_of_mem_visits visited)

/-! ## A batch that meets a row that does not read -/

namespace TwoWrites

/-- The tables in which the owner of node 1 does not read. -/
def corrupted : Tables := Tables.empty.put 1 { owner := "zz" }

/-- A world with these tables. -/
def corruptedWorld : World Backend := { store := .tables corrupted, now := 1700000000 }

/-- The owner of node 1 is read before the node is registered. -/
theorem apply_registration_corrupted : Store.apply (.register 1 account 60) corruptedWorld.store =
    (.error (Tables.unreadable "owner" "zz" Hex.Error.wrongLength.message), corruptedWorld.store) := by
  have held : corrupted.holding? 1 = some { owner := "zz" } := by
    rw [corrupted, Tables.holding?_put, if_pos rfl]
  have unread : Address.parse "zz" = .error .wrongLength := by decide
  have fits : ¬ Tables.maxTtl < (60 : UInt64).toNat := by decide
  rw [corruptedWorld, Backend.apply_tables]
  show ((Tables.register 1 account 60 corrupted).1, _) = _
  simp only [Tables.register, if_neg fits, Tables.hasOwner_eq_of_holding?, held, Cell.read, Except.bind,
    Tables.readColumn, unread]
  rfl

/-- The registration in the first slot of the batch is rejected and changes nothing. -/
theorem corrupted_registration_unchanged : ∃ args response after,
    (.invoke ((Context.ofCall (request (some authorization))).nested registration)
        Operation.register.signature (resolver.handler .register) args, corruptedWorld) ∈
      (resolver.table.plan (.ofCall (request (some authorization)))).visits corruptedWorld ∧
    (Plan.invoke ((Context.ofCall (request (some authorization))).nested registration)
        Operation.register.signature (resolver.handler .register) args).course.run corruptedWorld =
      (.answered response, after) ∧
    response.status = 400 ∧ after.store = corruptedWorld.store := by
  obtain ⟨args₁, args₂, read₁, -, hplan⟩ := plan_request (some authorization)
  have ran := run_handler_of_permits (r := resolver) (w := corruptedWorld) rfl read₁ rfl
    ⟨signerAt_nested registration (by decide), fun _ h => absurd h (by decide)⟩
    apply_registration_corrupted
  have visited : (Plan.invoke ((Context.ofCall (request (some authorization))).nested registration)
        Operation.register.signature (resolver.handler .register) args₁, corruptedWorld) ∈
      (resolver.table.plan (.ofCall (request (some authorization)))).visits corruptedWorld := by
    rw [hplan, Plan.visits, Plan.visitsOf]
    exact List.mem_cons_of_mem _ (List.mem_append_left _ (Plan.mem_visits_self ..))
  obtain ⟨response, after, answered, kept⟩ :=
    (store_unchanged_of_refused resolver (.ofCall (request (some authorization)))
      corruptedWorld).2 _ _ visited
  refine ⟨args₁, response, after, visited, answered, ?_⟩
  have status : response.status = 400 := by
    rw [Plan.run_course_invoke, ran] at answered
    obtain ⟨ended, -⟩ := Prod.mk.inj answered
    cases ended
    rfl
  refine ⟨status, kept ?_⟩
  rw [status]
  decide

end TwoWrites

end Resolver

end OffchainNames
