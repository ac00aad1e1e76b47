import Mathlib.Data.List.Chain
import OffchainNames.Gateway
import OffchainNames.Proofs.Dispatch.Plan
import OffchainNames.Proofs.Dispatch.Stages

/-!
# Moments of a run

A run handles calls one after the other, each at a time of its own. Its moments are where a call starts, the
outermost one or one inside its batches, where the stages start, and where the run ends. Between two moments
that follow each other at most one function runs, or the stages do. So what holds between a moment and the
next one whenever a single function or the stages run is a chain through all moments of the run
(`Gateway.isChain_moments`), and what every function and every stage keeps in the store holds at all
moments (`Gateway.moments_preserve`), the end among them (`Gateway.handleAll_preserves`).
-/

namespace OffchainNames

/-- A call that comes in, with the time at which it is handled and what the remote chain answers then. -/
structure Arrival where
  call : Call
  now : UInt64
  replies : List (Except RemoteError Bytes) := []

/-- A moment of a run: a call with a plan starts, or, if there is none, the stages start or the run ends. -/
structure Moment (σ : Type) where
  plan : Option Plan
  world : World σ

variable {σ : Type} [Store σ]

/-- The world in which a call is handled after those before it. -/
def Arrival.world (a : Arrival) (w : World σ) : World σ := ⟨w.store, a.now, a.replies⟩

/-- The moments at which a call and the calls inside it start. -/
def Plan.moments (plan : Plan) (w : World σ) : List (Moment σ) :=
  (plan.visits w).map fun visit => ⟨some visit.1, visit.2⟩

/-- What a call does itself: a batch leaves everything to the calls inside it. -/
def Plan.enter : Plan → World σ → World σ
  | refused _ _, w => w
  | invoke ctx _ handler args, w => ((handler ctx args).run w).2
  | batch _ _ _, w => w

namespace Gateway

/-- The world after calls were handled one after the other. -/
def handleAll (g : Gateway) : List Arrival → World σ → World σ
  | [], w => w
  | a :: rest, w => g.handleAll rest ((g.handle a.call).run (a.world w)).2

/-- The moments of a run. -/
def moments (g : Gateway) : List Arrival → World σ → List (Moment σ)
  | [], w => [⟨none, w⟩]
  | a :: rest, w =>
    (g.table.plan (.ofCall a.call)).moments (a.world w) ++
      ⟨none, ((g.table.plan (.ofCall a.call)).course.run (a.world w)).2⟩ ::
        g.moments rest ((g.handle a.call).run (a.world w)).2

end Gateway

namespace Plan

theorem moments_refused (ctx : Context) (cause : Error) (w : World σ) :
    (refused ctx cause).moments w = [⟨some (refused ctx cause), w⟩] := rfl

theorem moments_invoke (ctx : Context) (signature : Abi.Signature) (handler : Handler)
    (args : Arguments) (w : World σ) : (invoke ctx signature handler args).moments w =
      [⟨some (invoke ctx signature handler args), w⟩] := rfl

/-- A call starts in the world in which it is carried out. -/
theorem moments_eq_cons (plan : Plan) (w : World σ) :
    ∃ rest, plan.moments w = ⟨some plan, w⟩ :: rest := by
  cases plan with
  | refused ctx cause => exact ⟨[], rfl⟩
  | invoke ctx signature handler args => exact ⟨[], rfl⟩
  | batch ctx signature slots => exact ⟨_, rfl⟩

/-- What holds between a call that starts and whatever comes after its own work is a chain through the
moments of a plan, up to the moment that stands where the plan ends. -/
theorem isChain_moments {R : Moment σ → Moment σ → Prop} {plan : Plan} {w : World σ}
    {next : Moment σ} {rest : List (Moment σ)}
    (step : ∀ inner before after, (inner, before) ∈ plan.visits w →
      after.world = inner.enter before → R ⟨some inner, before⟩ after)
    (ends : next.world = (plan.course.run w).2) (tail : (next :: rest).IsChain R) :
    (plan.moments w ++ next :: rest).IsChain R := by
  induction plan using Plan.induction generalizing w next rest with
  | refused ctx cause =>
    rw [run_course_refused] at ends
    rw [moments_refused]
    exact .cons_cons (step _ w next (mem_visits_self _ w) ends) tail
  | invoke ctx signature handler args =>
    rw [run_course_invoke] at ends
    rw [moments_invoke]
    exact .cons_cons (step _ w next (mem_visits_self _ w) ends) tail
  | batch ctx signature slots ih =>
    rw [run_course_batch] at ends
    -- The slots start in the world of the batch, each where the one before it ends.
    have inside : ∀ (plans : List Plan) (w' : World σ), (∀ plan ∈ plans, plan ∈ slots) →
        (∀ visit ∈ visitsOf plans w', visit ∈ (batch ctx signature slots).visits w) →
        next.world = ((courses plans).run w').2 →
        ∃ first others, first.world = w' ∧ (first :: others).IsChain R ∧
          (visitsOf plans w').map (fun visit => (⟨some visit.1, visit.2⟩ : Moment σ)) ++
            next :: rest = first :: others := by
      intro plans
      induction plans with
      | nil =>
        intro w' _ _ ends
        rw [run_courses_nil] at ends
        exact ⟨next, rest, ends, tail, rfl⟩
      | cons plan plans ihPlans =>
        intro w' among visited ends
        rw [run_courses_cons] at ends
        rw [visitsOf] at visited
        obtain ⟨first, others, hfirst, chain, heq⟩ := ihPlans (plan.course.run w').2
          (fun p member => among p (List.mem_cons_of_mem _ member))
          (fun visit member => visited visit (List.mem_append_right _ member)) ends
        have here := ih plan (among plan (List.mem_cons_self ..))
          (fun inner before after member => step inner before after
            (visited _ (List.mem_append_left _ member))) hfirst chain
        obtain ⟨own, hown⟩ := plan.moments_eq_cons w'
        refine ⟨⟨some plan, w'⟩, own ++ first :: others, rfl, ?_, ?_⟩
        · rw [hown] at here
          exact here
        · rw [visitsOf, List.map_append, List.append_assoc, heq]
          exact congrArg (· ++ first :: others) hown
    obtain ⟨first, others, hfirst, chain, heq⟩ := inside slots w (fun _ member => member)
      (fun visit member => List.mem_cons_of_mem _ member) ends
    have starts : R ⟨some (batch ctx signature slots), w⟩ first :=
      step _ w first (mem_visits_self _ w) hfirst
    show (⟨some (batch ctx signature slots), w⟩ :: _ : List (Moment σ)).IsChain R
    rw [List.append_eq, heq]
    exact .cons_cons starts chain

end Plan

namespace Gateway

variable {g : Gateway} {R : Moment σ → Moment σ → Prop}

/-- A run starts with the store that it is given. -/
theorem moments_eq_first (g : Gateway) (arrivals : List Arrival) (w : World σ) :
    ∃ first rest, g.moments arrivals w = first :: rest ∧ first.world.store = w.store := by
  cases arrivals with
  | nil => exact ⟨_, [], rfl, rfl⟩
  | cons a arrivals =>
    obtain ⟨rest, hrest⟩ := (g.table.plan (.ofCall a.call)).moments_eq_cons (a.world w)
    exact ⟨_, _, congrArg (· ++ _ :: g.moments arrivals _) hrest, rfl⟩

/-- A run ends with the store that handling all its calls leaves. -/
theorem moments_eq_last (g : Gateway) (arrivals : List Arrival) (w : World σ) :
    ∃ earlier, g.moments arrivals w = earlier ++ [⟨none, g.handleAll arrivals w⟩] := by
  induction arrivals generalizing w with
  | nil => exact ⟨[], rfl⟩
  | cons a arrivals ih =>
    obtain ⟨earlier, hearlier⟩ := ih ((g.handle a.call).run (a.world w)).2
    refine ⟨(g.table.plan (.ofCall a.call)).moments (a.world w) ++
      ⟨none, ((g.table.plan (.ofCall a.call)).course.run (a.world w)).2⟩ :: earlier, ?_⟩
    rw [moments, handleAll, hearlier]
    simp

/-- What holds between a call that starts and whatever comes after its own work, and between the start of
the stages and whatever comes after them, is a chain through the moments of every run. -/
theorem isChain_moments
    (step : ∀ (call : Call) (w : World σ) inner before after,
      (inner, before) ∈ (g.table.plan (.ofCall call)).visits w →
        after.world = inner.enter before → R ⟨some inner, before⟩ after)
    (settle : ∀ (call : Call) (w : World σ) after,
      after.world.store = ((g.handle call).run w).2.store →
        R ⟨none, ((g.table.plan (.ofCall call)).course.run w).2⟩ after)
    (arrivals : List Arrival) (w : World σ) : (g.moments arrivals w).IsChain R := by
  induction arrivals generalizing w with
  | nil => exact .singleton _
  | cons a arrivals ih =>
    have later := ih ((g.handle a.call).run (a.world w)).2
    obtain ⟨first, rest, hfirst, same⟩ :=
      g.moments_eq_first arrivals ((g.handle a.call).run (a.world w)).2
    have settled : R ⟨none, ((g.table.plan (.ofCall a.call)).course.run (a.world w)).2⟩ first :=
      settle a.call (a.world w) first same
    rw [moments]
    refine Plan.isChain_moments (step a.call (a.world w)) rfl ?_
    rw [hfirst] at later ⊢
    exact .cons_cons settled later

/-- What every invoked function and every stage keep in the store holds at all moments of a run. -/
theorem moments_preserve {I : σ → Prop}
    (keeps : ∀ (call : Call) (w : World σ),
      Plan.Keeps (fun w => I w.store) ((g.table.plan (.ofCall call)).visits w))
    (stages : ∀ stage ∈ g.stages, ∀ call response (w : World σ),
      I w.store → I ((stage.process call response).run w).2.store)
    (arrivals : List Arrival) {w : World σ} (start : I w.store) :
    ∀ moment ∈ g.moments arrivals w, I moment.world.store := by
  have chain : (g.moments arrivals w).IsChain fun before after =>
      I before.world.store → I after.world.store := by
    refine isChain_moments ?_ ?_ arrivals w
    · intro call w inner before after visited ends h
      rw [ends]
      cases inner with
      | refused ctx cause | batch ctx signature slots => exact h
      | invoke ctx signature handler args => exact keeps call w ctx signature handler args before visited h
    · intro call w after ends h
      rw [ends]
      exact run_handle_preserves (I := fun w => I w.store) stages h
  obtain ⟨first, rest, moments, store⟩ := g.moments_eq_first arrivals w
  refine chain.induction _ _ (fun before after carries => carries) fun nonempty => ?_
  simp only [moments, List.head_cons, store]
  exact start

/-- What every invoked function and every stage keep in the store holds at the end of a run. -/
theorem handleAll_preserves {I : σ → Prop}
    (keeps : ∀ (call : Call) (w : World σ),
      Plan.Keeps (fun w => I w.store) ((g.table.plan (.ofCall call)).visits w))
    (stages : ∀ stage ∈ g.stages, ∀ call response (w : World σ),
      I w.store → I ((stage.process call response).run w).2.store)
    (arrivals : List Arrival) {w : World σ} (start : I w.store) : I (g.handleAll arrivals w).store := by
  obtain ⟨earlier, moments⟩ := g.moments_eq_last arrivals w
  refine moments_preserve keeps stages arrivals start ⟨none, g.handleAll arrivals w⟩ ?_
  rw [moments]
  exact List.mem_append_right _ (List.mem_singleton.mpr rfl)

end Gateway

end OffchainNames
