import OffchainNames.Dispatch
import OffchainNames.Proofs.Arguments
import OffchainNames.Proofs.Dispatch.Table

/-!
# The plans inside a plan

A batch holds the plans of its slots, and these may be batches again. Carrying a plan out visits all of
them (`Plan.visits`), and what every invoked function keeps in the world that it starts in, carrying out
the whole plan keeps (`Plan.run_course_preserves`). Every plan inside the plan of a call
is itself the plan of a call that belongs to the same outermost call (`Table.of_mem_subplans_planAt`):
contract, authorization and outermost calldata are handed down unchanged.
-/

namespace OffchainNames

theorem Course.run_now {σ ρ : Type} [Store σ] (c : Course ρ) (w : World σ) :
    (c.run w).2.now = w.now := by
  induction c generalizing w with
  | done answer => rfl
  | domain node next ih => exact ih _ w
  | change c next ih => exact ih _ _
  | ask contract data next ih =>
    refine (ih _ _).trans ?_
    split <;> rfl
  | clock next ih => exact ih _ w

namespace Plan

/-- Induction on plans: a property of the slots of a batch has to carry over to the batch. -/
@[elab_as_elim]
theorem induction {motive : Plan → Prop} (refused : ∀ ctx cause, motive (.refused ctx cause))
    (invoke : ∀ ctx signature handler args, motive (.invoke ctx signature handler args))
    (batch : ∀ ctx signature slots, (∀ slot ∈ slots, motive slot) →
      motive (.batch ctx signature slots)) (plan : Plan) : motive plan := by
  refine Plan.rec (motive_1 := motive) (motive_2 := fun slots => ∀ slot ∈ slots, motive slot)
    refused invoke batch ?_ ?_ plan
  · intro slot member
    cases member
  · intro first rest hfirst hrest slot member
    rcases List.mem_cons.mp member with rfl | member
    · exact hfirst
    · exact hrest slot member

mutual

/-- A plan and the plans of all calls inside it, in the order in which they are carried out. -/
def subplans : Plan → List Plan
  | refused ctx cause => [refused ctx cause]
  | invoke ctx signature handler args => [invoke ctx signature handler args]
  | batch ctx signature slots => batch ctx signature slots :: subplansOf slots

/-- The plans of the slots of a batch and of all calls inside them. -/
def subplansOf : List Plan → List Plan
  | [] => []
  | plan :: rest => subplans plan ++ subplansOf rest

end

theorem subplansOf_eq_flatMap (plans : List Plan) : subplansOf plans = plans.flatMap subplans := by
  induction plans with
  | nil => rfl
  | cons plan rest ih => rw [subplansOf, List.flatMap_cons, ih]

theorem contextsOf_eq_flatMap (plans : List Plan) : contextsOf plans = plans.flatMap contexts := by
  induction plans with
  | nil => rfl
  | cons plan rest ih => rw [contextsOf, List.flatMap_cons, ih]

theorem mem_subplans_self (plan : Plan) : plan ∈ plan.subplans := by
  cases plan <;> simp [subplans]

theorem mem_subplans_batch {ctx : Context} {signature : Abi.Signature} {slots : List Plan}
    {plan : Plan} : plan ∈ (batch ctx signature slots).subplans ↔
      plan = batch ctx signature slots ∨ ∃ slot ∈ slots, plan ∈ slot.subplans := by
  simp [subplans, subplansOf_eq_flatMap]

/-- The contexts of a plan are those of the plans inside it. -/
theorem contexts_eq_map (plan : Plan) : plan.contexts = plan.subplans.map context := by
  induction plan using Plan.induction with
  | refused ctx cause => rfl
  | invoke ctx signature handler args => rfl
  | batch ctx signature slots ih =>
    rw [contexts, subplans, List.map_cons, contextsOf_eq_flatMap, subplansOf_eq_flatMap,
      List.map_flatMap]
    exact congrArg (ctx :: ·) (congrArg List.flatten (List.map_congr_left ih))

section Run

variable {σ : Type} [Store σ]

@[simp] theorem run_course_refused (ctx : Context) (cause : Error) (w : World σ) :
    (refused ctx cause).course.run w = (.answered (.ofError cause), w) := by
  simp [course]

@[simp] theorem run_course_invoke (ctx : Context) (signature : Abi.Signature) (handler : Handler)
    (args : Arguments) (w : World σ) :
    (invoke ctx signature handler args).course.run w =
      (((handler ctx args).run w).1.ending signature, ((handler ctx args).run w).2) := by
  simp [course]

@[simp] theorem run_course_batch (ctx : Context) (signature : Abi.Signature) (slots : List Plan)
    (w : World σ) : (batch ctx signature slots).course.run w =
      ((Outcome.ofSlots ((courses slots).run w).1).ending signature, ((courses slots).run w).2) := by
  simp [course]

@[simp] theorem run_courses_nil (w : World σ) : (courses []).run w = ([], w) := by
  simp [courses]

@[simp] theorem run_courses_cons (plan : Plan) (rest : List Plan) (w : World σ) :
    (courses (plan :: rest)).run w =
      ((plan.course.run w).1 :: ((courses rest).run (plan.course.run w).2).1,
        ((courses rest).run (plan.course.run w).2).2) := by
  simp [courses]

mutual

/-- A plan and the plans of all calls inside it, each with the world in which it starts when the plan is
carried out. -/
def visits : Plan → World σ → List (Plan × World σ)
  | refused ctx cause, w => [(refused ctx cause, w)]
  | invoke ctx signature handler args, w => [(invoke ctx signature handler args, w)]
  | batch ctx signature slots, w => (batch ctx signature slots, w) :: visitsOf slots w

/-- The plans of the slots of a batch and of all calls inside them, each with the world in which it
starts. -/
def visitsOf : List Plan → World σ → List (Plan × World σ)
  | [], _ => []
  | plan :: rest, w => visits plan w ++ visitsOf rest (plan.course.run w).2

end

theorem mem_visits_self (plan : Plan) (w : World σ) : (plan, w) ∈ plan.visits w := by
  cases plan <;> simp [visits]

/-- What is visited are the plans inside a plan. -/
theorem map_fst_visits (plan : Plan) (w : World σ) :
    (plan.visits w).map Prod.fst = plan.subplans := by
  induction plan using Plan.induction generalizing w with
  | refused ctx cause => rfl
  | invoke ctx signature handler args => rfl
  | batch ctx signature slots ih =>
    rw [visits, subplans, List.map_cons]
    refine congrArg (batch ctx signature slots :: ·) ?_
    induction slots generalizing w with
    | nil => rfl
    | cons first rest ihRest =>
      rw [visitsOf, subplansOf, List.map_append, ih first (List.mem_cons_self ..)]
      exact congrArg (first.subplans ++ ·)
        (ihRest (fun slot member => ih slot (List.mem_cons_of_mem _ member)) _)

theorem mem_subplans_of_mem_visits {plan inner : Plan} {w w' : World σ}
    (h : (inner, w') ∈ plan.visits w) : inner ∈ plan.subplans := by
  rw [← plan.map_fst_visits w]
  exact List.mem_map.mpr ⟨(inner, w'), h, rfl⟩

/-- Everything is visited at the time at which the plan starts. -/
theorem now_of_mem_visits {plan inner : Plan} {w w' : World σ}
    (h : (inner, w') ∈ plan.visits w) : w'.now = w.now := by
  induction plan using Plan.induction generalizing w with
  | refused ctx cause | invoke ctx signature handler args =>
    cases List.mem_singleton.mp h
    rfl
  | batch ctx signature slots ih =>
    rcases List.mem_cons.mp h with heq | inside
    · cases heq
      rfl
    · clear h
      induction slots generalizing w with
      | nil => cases inside
      | cons first rest ihRest =>
        rcases List.mem_append.mp inside with member | member
        · exact ih first (List.mem_cons_self ..) member
        · have hrest := ihRest (fun slot m => ih slot (List.mem_cons_of_mem _ m)) member
          exact hrest.trans (Course.run_now _ w)

/-- Among what is visited, every invoked function keeps a property of the world. -/
def Keeps (I : World σ → Prop) (visited : List (Plan × World σ)) : Prop :=
  ∀ ctx signature handler args w, (invoke ctx signature handler args, w) ∈ visited → I w →
    I ((handler ctx args).run w).2

/-- What every invoked function keeps, carrying out a plan keeps. -/
theorem run_course_preserves {I : World σ → Prop} {plan : Plan} {w : World σ}
    (step : Keeps I (plan.visits w)) (h : I w) : I (plan.course.run w).2 := by
  induction plan using Plan.induction generalizing w with
  | refused ctx cause => simpa using h
  | invoke ctx signature handler args =>
    rw [run_course_invoke]
    exact step ctx signature handler args w (mem_visits_self _ w) h
  | batch ctx signature slots ih =>
    rw [run_course_batch]
    have inside : Keeps I (visitsOf slots w) := by
      intro ctx' signature' handler args w' member
      exact step ctx' signature' handler args w' (List.mem_cons_of_mem _ member)
    clear step
    -- One slot after the other: the property holds where each of them starts.
    induction slots generalizing w with
    | nil => simpa using h
    | cons first rest ihRest =>
      rw [run_courses_cons]
      have hfirst : I (first.course.run w).2 := by
        refine ih first (List.mem_cons_self ..) ?_ h
        intro ctx' signature' handler args w' member
        exact inside ctx' signature' handler args w' (List.mem_append_left _ member)
      refine ihRest (fun slot member => ih slot (List.mem_cons_of_mem _ member)) hfirst ?_
      intro ctx' signature' handler args w' member
      exact inside ctx' signature' handler args w' (List.mem_append_right _ member)

end Run

end Plan

namespace Table

variable {t : Table}

/-- The plan of a call is about the context of that call. -/
theorem context_planAt (t : Table) (levels : Nat) (ctx : Context) :
    (t.planAt levels ctx).context = ctx := by
  unfold planAt
  repeat' split
  all_goals rfl

/-- A call invokes a function iff its selector names one and the arguments read. -/
theorem planAt_eq_invoke_iff {levels : Nat} {ctx ctx' : Context} {signature : Abi.Signature}
    {handler : Handler} {args : Arguments} :
    t.planAt levels ctx = .invoke ctx' signature handler args ↔
      ctx' = ctx ∧ ∃ selector payload, splitSelector ctx.data = .ok (selector, payload) ∧
        t.get? selector = some ⟨signature, .function handler⟩ ∧
        signature.decodeInput payload = .ok args := by
  constructor
  · intro h
    unfold planAt at h
    repeat' split at h
    all_goals cases h
    exact ⟨rfl, _, _, ‹_›, ‹_›, ‹_›⟩
  · rintro ⟨rfl, selector, payload, hsplit, hget, hargs⟩
    unfold planAt
    simp only [hsplit, hget, hargs]

/-- A call makes a batch iff its selector names the batch, the calls read, and another level may be
opened. -/
theorem planAt_eq_batch_iff {levels : Nat} {ctx ctx' : Context} {signature : Abi.Signature}
    {slots : List Plan} :
    t.planAt levels ctx = .batch ctx' signature slots ↔
      ctx' = ctx ∧ ∃ selector payload args calls inner,
        splitSelector ctx.data = .ok (selector, payload) ∧
        t.get? selector = some ⟨signature, .batch⟩ ∧ signature.decodeInput payload = .ok args ∧
        levels = inner + 1 ∧ Arguments.bytesArray args 0 = .ok calls ∧
        slots = calls.map fun data => t.planAt inner (ctx.nested data) := by
  constructor
  · intro h
    unfold planAt at h
    repeat' split at h
    all_goals cases h
    exact ⟨rfl, _, _, _, _, _, ‹_›, ‹_›, ‹_›, rfl, ‹_›, rfl⟩
  · rintro ⟨rfl, selector, payload, args, calls, inner, hsplit, hget, hargs, rfl, hcalls, rfl⟩
    rw [planAt]
    simp only [hsplit, hget, hargs, hcalls]

/-- A call whose arguments do not read is refused. -/
theorem planAt_of_decodeInput_error {ctx : Context} {entry : Entry} {selector : Selector}
    {payload : Bytes} {e : Error}
    (split : splitSelector ctx.data = .ok (selector, payload))
    (holds : t.get? selector = some entry)
    (unread : entry.signature.decodeInput payload = .error e) (levels : Nat) :
    t.planAt levels ctx = .refused ctx e := by
  unfold planAt
  simp only [split, holds, unread]

/-- Calldata that names no batch is refused in every context for the same cause, or invokes the same
function with the same arguments in every context. -/
theorem planAt_of_no_batch {data : Bytes} (direct : ∀ selector payload signature,
    splitSelector data = .ok (selector, payload) → t.get? selector ≠ some ⟨signature, .batch⟩) :
    (∃ cause, ∀ levels ctx, ctx.data = data → t.planAt levels ctx = .refused ctx cause) ∨
    ∃ selector payload signature handler args, splitSelector data = .ok (selector, payload) ∧
      t.get? selector = some ⟨signature, .function handler⟩ ∧
      signature.decodeInput payload = .ok args ∧
      ∀ levels ctx, ctx.data = data → t.planAt levels ctx = .invoke ctx signature handler args := by
  cases split : splitSelector data with
  | error e =>
    refine .inl ⟨e, ?_⟩
    rintro levels ctx rfl
    rw [planAt, split]
  | ok parts =>
    obtain ⟨selector, payload⟩ := parts
    cases entry : t.get? selector with
    | none =>
      refine .inl ⟨.notImplemented selector, ?_⟩
      rintro levels ctx rfl
      unfold planAt
      simp only [split, entry]
    | some held =>
      obtain ⟨signature, kind⟩ := held
      cases hargs : signature.decodeInput payload with
      | error e =>
        refine .inl ⟨e, ?_⟩
        rintro levels ctx rfl
        exact planAt_of_decodeInput_error split entry hargs levels
      | ok args =>
        cases kind with
        | batch => exact absurd entry (direct selector payload signature split)
        | function handler =>
          refine .inr ⟨selector, payload, signature, handler, args, rfl, entry, hargs, ?_⟩
          rintro levels ctx rfl
          exact planAt_eq_invoke_iff.mpr ⟨rfl, selector, payload, split, entry, hargs⟩

end Table

/-- A context belongs to the outermost call of another: contract, authorization and outermost calldata
are the same. -/
structure Context.Inherits (inner outer : Context) : Prop where
  sender : inner.sender = outer.sender
  rootData : inner.rootData = outer.rootData
  authorization : inner.authorization = outer.authorization

namespace Context

theorem Inherits.refl (ctx : Context) : ctx.Inherits ctx := ⟨rfl, rfl, rfl⟩

theorem Inherits.trans {a b c : Context} (hab : a.Inherits b) (hbc : b.Inherits c) :
    a.Inherits c :=
  ⟨hab.sender.trans hbc.sender, hab.rootData.trans hbc.rootData,
    hab.authorization.trans hbc.authorization⟩

theorem inherits_nested (ctx : Context) (data : Bytes) : (ctx.nested data).Inherits ctx :=
  ⟨rfl, rfl, rfl⟩

end Context

namespace Table

variable {t : Table}

/-- Every plan inside the plan of a call is the plan of a call that belongs to the same outermost
call. -/
theorem of_mem_subplans_planAt {levels : Nat} {ctx : Context} {plan : Plan}
    (h : plan ∈ (t.planAt levels ctx).subplans) :
    ∃ inner ctx', ctx'.Inherits ctx ∧ plan = t.planAt inner ctx' := by
  induction hp : t.planAt levels ctx using Plan.induction generalizing levels ctx with
  | refused ctx' cause =>
    rw [hp, Plan.subplans, List.mem_singleton] at h
    exact ⟨levels, ctx, .refl ctx, h.trans hp.symm⟩
  | invoke ctx' signature handler args =>
    rw [hp, Plan.subplans, List.mem_singleton] at h
    exact ⟨levels, ctx, .refl ctx, h.trans hp.symm⟩
  | batch ctx' signature slots ih =>
    rw [hp, Plan.mem_subplans_batch] at h
    rcases h with h | ⟨slot, member, inside⟩
    · exact ⟨levels, ctx, .refl ctx, h.trans hp.symm⟩
    · obtain ⟨-, _, _, _, calls, inner, -, -, -, -, -, rfl⟩ := planAt_eq_batch_iff.mp hp
      obtain ⟨data, -, rfl⟩ := List.mem_map.mp member
      obtain ⟨levels', ctx'', inherits, hplan⟩ := ih _ member inside rfl
      exact ⟨levels', ctx'', inherits.trans (ctx.inherits_nested data), hplan⟩

/-- Why a call is refused: its calldata is no selector with arguments of the function that it names, batches
are too deep, or the argument of a batch is not read. -/
theorem cases_of_planAt_refused {levels : Nat} {ctx ctx' : Context} {cause : Error}
    (h : t.planAt levels ctx = .refused ctx' cause) :
    splitSelector ctx.data = .error cause ∨ (∃ selector, cause = .notImplemented selector) ∨
      cause = .malformedRequest "multicall nested too deeply" ∨
      ∃ selector payload entry, t.get? selector = some entry ∧
        (entry.signature.decodeInput payload = .error cause ∨
          ∃ args, entry.kind = .batch ∧ entry.signature.decodeInput payload = .ok args ∧
            Arguments.bytesArray args 0 = .error cause) := by
  unfold planAt at h
  split at h
  · cases h
    exact .inl ‹_›
  · split at h
    · cases h
      exact .inr (.inl ⟨_, rfl⟩)
    · rename_i signature kind hget
      split at h
      · cases h
        exact .inr (.inr (.inr ⟨_, _, _, hget, .inl ‹_›⟩))
      · split at h
        · cases h
        · split at h
          · cases h
            exact .inr (.inr (.inl rfl))
          · split at h
            · cases h
              exact .inr (.inr (.inr ⟨_, _, _, hget, .inr ⟨_, rfl, ‹_›, ‹_›⟩⟩))
            · cases h

/-- A refusal to dispatch a call is no success. -/
theorem status_of_planAt_refused {levels : Nat} {ctx ctx' : Context} {cause : Error}
    (h : t.planAt levels ctx = .refused ctx' cause) : cause.status ≠ 200 := by
  have malformed : cause.status = 400 → cause.status ≠ 200 := by
    intro hstatus
    rw [hstatus]
    decide
  rcases cases_of_planAt_refused h with hsplit | ⟨selector, rfl⟩ | rfl |
    ⟨selector, payload, entry, -, hargs | ⟨args, -, -, hcalls⟩⟩
  · exact malformed (status_splitSelector hsplit)
  · exact (by decide : (404 : UInt16) ≠ 200)
  · exact malformed rfl
  · exact malformed (Abi.Signature.status_decodeInput hargs)
  · exact malformed (Arguments.Access.accessError (.bytesArray 0)
      (Except.error?_eq_some_iff.mpr hcalls)).status

/-- A batch is made under the signature of batches only. -/
theorem Built.signature_of_planAt (built : t.Built) {levels : Nat} {ctx ctx' : Context}
    {signature : Abi.Signature} {slots : List Plan}
    (h : t.planAt levels ctx = .batch ctx' signature slots) : signature = .multicall := by
  obtain ⟨-, _, _, _, _, _, -, hget, -⟩ := planAt_eq_batch_iff.mp h
  exact (built.of_batch hget).2

/-- Where no batch is made, nothing is dispatched but the call itself. -/
theorem Built.contexts_of_no_batch (built : t.Built) {levels : Nat} {ctx : Context}
    (h : ∀ slots, t.planAt levels ctx ≠ .batch ctx .multicall slots) :
    (t.planAt levels ctx).contexts = [ctx] := by
  have hctx := t.context_planAt levels ctx
  cases hp : t.planAt levels ctx with
  | refused ctx' cause | invoke ctx' signature handler args =>
    rw [hp, Plan.context] at hctx
    rw [Plan.contexts, hctx]
  | batch ctx' signature slots =>
    obtain rfl := built.signature_of_planAt hp
    rw [hp, Plan.context] at hctx
    exact absurd (hctx ▸ hp) (h slots)

end Table

end OffchainNames
