import OffchainNames.Proofs.Abi.Calls
import OffchainNames.Proofs.Abi.Types
import OffchainNames.Proofs.Dispatch.Plan

/-!
# Answers of batches

A batch is answered iff all its slots are, always with success, and then its data is the list of what
the answers leave in the slots (`Plan.run_course_batch_eq_answered_iff`). So an answer of a slot never
makes the batch fail, and no slot is dropped or moved.
-/

namespace OffchainNames

namespace Abi

theorem readable_bytesArray (name : String) :
    Readable [⟨name, "bytes[]", []⟩] [.array .bytes] where
  resolved := Param.resolveAll_eq_ok_iff.mpr (.cons (Param.resolve_bytesArray name) .nil)
  solid := rfl
  frames := by decide

theorem admitsAll_bytesArray (items : List Bytes) :
    Ty.admitsAll [.array .bytes] [.array (items.map .bytes)] = true := by
  simp [Ty.admitsAll, Ty.admits]

/-- A list of byte strings always encodes. -/
theorem Signature.pack_multicall (slots : List Bytes) :
    multicall.pack [.array (slots.map .bytes)] = .ok (Abi.encode [.array (slots.map .bytes)]) :=
  pack_of_admitsAll (readable_bytesArray "results").resolved (admitsAll_bytesArray slots)

end Abi

/-- What the answers to the calls of a batch put together to. -/
def Response.ofBatch (responses : List Response) : Response :=
  .ok (Abi.encode [.array ((responses.map slot).map .bytes)]) none

theorem Response.isSuccess_iff {response : Response} :
    response.isSuccess = true ↔ response.status = 200 := beq_iff_eq

@[simp] theorem Response.isSuccess_ofBatch (responses : List Response) :
    (ofBatch responses).isSuccess = true := rfl

namespace Outcome

theorem mapM_slot?_map_answered (responses : List Response) :
    (responses.map Ending.answered).mapM Ending.slot? = some (responses.map Response.slot) := by
  induction responses with
  | nil => rfl
  | cons response rest ih => simp [List.mapM_cons, Ending.slot?, ih]

theorem mapM_slot?_eq_none {endings : List (Ending Response)}
    (h : ∀ responses : List Response, endings ≠ responses.map .answered) :
    endings.mapM Ending.slot? = none := by
  induction endings with
  | nil => exact absurd rfl (h [])
  | cons ending rest ih =>
    cases ending with
    | answered response =>
      have hrest : ∀ responses : List Response, rest ≠ responses.map .answered := by
        intro responses heq
        exact h (response :: responses) (by rw [heq, List.map_cons])
      simp [List.mapM_cons, ih hrest]
    | crashed => simp [List.mapM_cons, Ending.slot?]
    | never => simp [List.mapM_cons, Ending.slot?]

/-- A batch is answered iff all its slots are. -/
theorem ending_ofSlots_eq_answered_iff {endings : List (Ending Response)} {response : Response} :
    (ofSlots endings).ending .multicall = .answered response ↔
      ∃ responses, endings = responses.map .answered ∧ response = .ofBatch responses := by
  have answered : ∀ responses : List Response,
      (ofSlots (responses.map .answered)).ending .multicall = .answered (.ofBatch responses) := by
    intro responses
    simp only [ofSlots, mapM_slot?_map_answered, ending, Abi.Signature.pack_multicall]
    rfl
  constructor
  · intro h
    by_cases hall : ∃ responses : List Response, endings = responses.map .answered
    · obtain ⟨responses, rfl⟩ := hall
      rw [answered] at h
      cases h
      exact ⟨responses, rfl, rfl⟩
    · rw [ofSlots, mapM_slot?_eq_none (not_exists.mp hall)] at h
      cases h
  · rintro ⟨responses, rfl, rfl⟩
    exact answered responses

end Outcome

namespace Plan

variable {σ : Type} [Store σ]

/-- A batch is answered iff all its slots are; the answer is always a success. -/
theorem run_course_batch_eq_answered_iff {ctx : Context} {slots : List Plan} {w : World σ}
    {response : Response} :
    ((batch ctx .multicall slots).course.run w).1 = .answered response ↔
      ∃ responses, ((courses slots).run w).1 = responses.map .answered ∧
        response = .ofBatch responses := by
  rw [run_course_batch, Outcome.ending_ofSlots_eq_answered_iff]

/-- How a slot of a batch ends is how its plan ends in the world that the slots before it leave. -/
theorem getElem?_run_courses (plans : List Plan) (k : Nat) (w : World σ) :
    ((courses plans).run w).1[k]? =
      plans[k]?.map fun plan => (plan.course.run ((courses (plans.take k)).run w).2).1 := by
  induction plans generalizing k w with
  | nil => simp
  | cons first rest ih =>
    rw [run_courses_cons]
    cases k with
    | zero => simp
    | succ k => simp [ih]

@[simp] theorem length_run_courses (plans : List Plan) (w : World σ) :
    ((courses plans).run w).1.length = plans.length := by
  induction plans generalizing w with
  | nil => simp
  | cons first rest ih => rw [run_courses_cons, List.length_cons, ih, List.length_cons]

/-- Plans that are always answered are answered one after the other. -/
theorem run_courses_answered {plans : List Plan}
    (h : ∀ plan ∈ plans, ∀ w : World σ, ∃ response, (plan.course.run w).1 = .answered response)
    (w : World σ) : ∃ responses : List Response,
      ((courses plans).run w).1 = responses.map .answered := by
  induction plans generalizing w with
  | nil => exact ⟨[], by simp⟩
  | cons first rest ih =>
    obtain ⟨response, hfirst⟩ := h first (List.mem_cons_self ..) w
    obtain ⟨responses, hrest⟩ :=
      ih (fun plan member => h plan (List.mem_cons_of_mem _ member)) (first.course.run w).2
    refine ⟨response :: responses, ?_⟩
    rw [run_courses_cons, hfirst, hrest, List.map_cons]

end Plan

/-- An outcome that is an end leads to a response. -/
theorem Outcome.ending_answered {outcome : Outcome} (h : outcome ≠ .never)
    (signature : Abi.Signature) : ∃ response, outcome.ending signature = .answered response := by
  cases outcome with
  | reply returned =>
    simp only [ending]
    cases signature.pack returned.values with
    | ok data => exact ⟨_, rfl⟩
    | error e => exact ⟨_, rfl⟩
  | failure cause => exact ⟨_, rfl⟩
  | crash text => exact ⟨_, rfl⟩
  | never => exact absurd rfl h

/-! ## Answers -/

/-- A response is data or the report of an error. -/
inductive Response.Regular : Response → Prop where
  | ok (data : Bytes) (ttl : Option UInt64) : Regular (.ok data ttl)
  | ofError (e : Error) : Regular (.ofError e)

namespace Response

/-- What is no success reports a message. -/
theorem Regular.message {response : Response} (regular : response.Regular)
    (h : response.status ≠ 200) : ∃ text, response.message? = some text := by
  cases regular with
  | ok data ttl => exact absurd rfl h
  | ofError e => exact ⟨e.message, rfl⟩

theorem slot_of_success {response : Response} (h : response.status = 200) :
    response.slot = response.data :=
  if_pos (isSuccess_iff.mpr h)

theorem slot_of_message {response : Response} {text : String} (h : response.status ≠ 200)
    (message : response.message? = some text) : response.slot = errorPayload text := by
  have failed : ¬ response.isSuccess = true := fun success => h (isSuccess_iff.mp success)
  rw [slot, if_neg failed, message]
  rfl

end Response

theorem Outcome.regular_of_ending {outcome : Outcome} {signature : Abi.Signature}
    {response : Response} (h : outcome.ending signature = .answered response) :
    response.Regular := by
  cases outcome with
  | reply returned =>
    rw [ending] at h
    split at h
    · cases h
      exact .ok _ _
    · cases h
      exact .ofError _
  | failure cause =>
    cases h
    exact .ofError cause
  | crash text =>
    cases h
    exact .ofError _
  | never => cases h

/-- A call is answered if all functions that are invoked for it end. -/
theorem Table.Built.run_planAt_answered {σ : Type} [Store σ] {t : Table} (built : t.Built)
    {levels : Nat} {ctx : Context}
    (ends : ∀ ctx' signature handler args,
      .invoke ctx' signature handler args ∈ (t.planAt levels ctx).subplans →
        ∀ w : World σ, ((handler ctx' args).run w).1 ≠ .never) (w : World σ) :
    ∃ response, ((t.planAt levels ctx).course.run w).1 = .answered response := by
  induction hp : t.planAt levels ctx using Plan.induction generalizing levels ctx w with
  | refused ctx' cause => exact ⟨.ofError cause, by rw [Plan.run_course_refused]⟩
  | invoke ctx' signature handler args =>
    rw [hp] at ends
    rw [Plan.run_course_invoke]
    exact Outcome.ending_answered (ends _ _ _ _ (Plan.mem_subplans_self _) w) signature
  | batch ctx' signature slots ih =>
    obtain rfl := built.signature_of_planAt hp
    obtain ⟨-, _, _, _, calls, inner, -, -, -, -, -, hslots⟩ := planAt_eq_batch_iff.mp hp
    have answered : ∀ slot ∈ slots, ∀ w : World σ,
        ∃ response, (slot.course.run w).1 = .answered response := by
      intro slot member w
      have inside : ∀ plan ∈ slot.subplans, plan ∈ (t.planAt levels ctx).subplans := by
        intro plan h
        rw [hp]
        exact Plan.mem_subplans_batch.mpr (.inr ⟨slot, member, h⟩)
      have hmember := member
      rw [hslots] at hmember
      obtain ⟨data, -, hslot⟩ := List.mem_map.mp hmember
      refine ih slot member ?_ w hslot
      intro ctx'' signature handler args h
      rw [hslot] at h
      exact ends ctx'' signature handler args (inside _ h)
    obtain ⟨responses, hresponses⟩ := Plan.run_courses_answered answered w
    exact ⟨_, Plan.run_course_batch_eq_answered_iff.mpr ⟨responses, hresponses, rfl⟩⟩

end OffchainNames
