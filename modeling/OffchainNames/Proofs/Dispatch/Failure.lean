import OffchainNames.Envelope
import OffchainNames.Proofs.Dispatch.Batch
import OffchainNames.Proofs.Dispatch.Stages
import OffchainNames.Proofs.Integrity.Marking

/-!
# Failures and the status of success

Whether a response is a success is told by its status alone, while it is the body that carries the
message of a failure. The two agree for every error but the one that a function declares with the status
200: such a failure is signed as if it had returned no data, and leaves an empty slot in a batch. Every
other failure, and every breakdown, reaches the caller with its wording (`failure_shown_iff`).
-/

namespace OffchainNames

/-- The error that an outcome is reported as, if the function failed or broke down. -/
def Outcome.error? : Outcome → Option Error
  | .failure cause => some cause
  | .crash text => some (.refusal (crashMessage text))
  | .reply _ => none
  | .never => none

theorem Outcome.ending_of_error? {outcome : Outcome} {e : Error} (h : outcome.error? = some e)
    (signature : Abi.Signature) : outcome.ending signature = .answered (.ofError e) := by
  cases outcome with
  | failure cause =>
    cases h
    rfl
  | crash text =>
    cases h
    rfl
  | reply returned => cases h
  | never => cases h

namespace Response

/-- An error counts as a success iff it has the status of one. -/
theorem isSuccess_ofError_iff {e : Error} : (ofError e).isSuccess = true ↔ e.status = 200 :=
  isSuccess_iff

/-- The slot of an error reports its wording iff the error has not the status of success. -/
theorem slot_ofError_iff {e : Error} : (ofError e).slot = errorPayload e.message ↔ e.status ≠ 200 := by
  unfold slot
  by_cases h : e.status = 200
  · rw [if_pos (isSuccess_ofError_iff.mpr h)]
    constructor
    · intro hempty
      cases hempty
    · intro hne
      exact absurd h hne
  · rw [if_neg (fun success => h (isSuccess_ofError_iff.mp success))]
    exact iff_of_true rfl h

end Response

namespace Signer

variable {σ : Type} [Store σ]

/-- The stage signs at the given time, or at that of the clock. -/
theorem run_process (signer : Signer) (time : Option UInt64) (call : Call) (response : Response)
    (w : World σ) : ((signer.stage time).process call response).run w =
      (.answered (.ok (signer.processAt (time.getD w.now) call response)), w) := by
  cases time <;> rfl

theorem processAt_of_not_success (signer : Signer) (now : UInt64) (call : Call)
    {response : Response} (h : response.isSuccess = false) :
    signer.processAt now call response = response := by
  rw [processAt, h]
  rfl

/-- A signed response carries data. -/
theorem processAt_of_success (signer : Signer) (now : UInt64) (call : Call)
    {response : Response} (h : response.isSuccess = true) :
    ∃ content expires, signer.processAt now call response = .ok content (some expires) := by
  rw [processAt, if_pos h]
  exact ⟨_, _, rfl⟩

end Signer

section Failure

variable {σ : Type} [Store σ]

/-- Stages that mark and sign leave a response as it is that is no success. -/
theorem run_processAll_of_not_success (i : Integrity) (signer : Signer) (time : Option UInt64)
    (call : Call) {response : Response} (w : World σ) (h : response.isSuccess = false) :
    (Stage.processAll [i.stage, signer.stage time] call response).run w =
      (.answered response, w) := by
  have marked : (i.stage.process call response).run w = (.answered (.ok response), w) := by
    rw [Integrity.run_stage, i.run_process_of_not_success call w h]
  have signed : ((signer.stage time).process call response).run w =
      (.answered (.ok response), w) := by
    rw [Signer.run_process, Signer.processAt_of_not_success signer _ call h]
  rw [Stage.run_processAll_of_ok marked, Stage.run_processAll_of_ok signed,
    Stage.run_processAll_nil]

/-- What the marking hands on as a success leaves the signing as signed data. -/
theorem run_processAll_of_marked {i : Integrity} {call : Call} {response handedOn : Response}
    {w w' : World σ} (signer : Signer) (time : Option UInt64)
    (hrun : (i.process call response).run w = (.ok handedOn, w'))
    (success : handedOn.isSuccess = true) :
    ∃ content expires, ((Stage.processAll [i.stage, signer.stage time] call response).run w).1 =
      .answered (.ok content (some expires)) := by
  have marked : (i.stage.process call response).run w = (.answered (.ok handedOn), w') := by
    rw [Integrity.run_stage, hrun]
  obtain ⟨content, expires, hsigned⟩ := signer.processAt_of_success (time.getD w'.now) call success
  have signed : ((signer.stage time).process call handedOn).run w' =
      (.answered (.ok (.ok content (some expires))), w') := by
    rw [Signer.run_process, hsigned]
  refine ⟨content, expires, ?_⟩
  rw [Stage.run_processAll_of_ok marked, Stage.run_processAll_of_ok signed,
    Stage.run_processAll_nil]

/-- A success leaves the stages that mark and sign with signed data, unless the store fails. -/
theorem run_processAll_of_success (i : Integrity) (signer : Signer) (time : Option UInt64)
    (call : Call) {response : Response} (w : World σ) (h : response.isSuccess = true) :
    (∃ content expires, ((Stage.processAll [i.stage, signer.stage time] call response).run w).1 =
      .answered (.ok content (some expires))) ∨
    ∃ detail, ((Stage.processAll [i.stage, signer.stage time] call response).run w).1 =
      .answered (.ofError (.signing detail)) := by
  rcases i.run_process_of_success call w h with ⟨handedOn, w', success, hrun⟩ | ⟨detail, w', hrun⟩
  · exact .inl (run_processAll_of_marked signer time hrun success)
  · refine .inr ⟨detail, ?_⟩
    rw [Stage.processAll, Course.run_bind, Integrity.run_stage, hrun]
    rfl

/-- A failure of the function that a call invokes is the answer to the call iff it has not the status of
success. -/
theorem run_handle_of_error_iff {t : Table} (i : Integrity) (signer : Signer)
    (time : Option UInt64) {call : Call} {ctx : Context} {signature : Abi.Signature}
    {handler : Handler} {args : Arguments} {w : World σ} {e : Error}
    (hplan : t.plan (.ofCall call) = .invoke ctx signature handler args)
    (herror : ((handler ctx args).run w).1.error? = some e) :
    (((Gateway.mk t [i.stage, signer.stage time]).handle call).run w).1 = .answered (.ofError e) ↔
      e.status ≠ 200 := by
  have dispatched : (t.plan (.ofCall call)).course.run w =
      (.answered (.ofError e), ((handler ctx args).run w).2) := by
    rw [hplan, Plan.run_course_invoke, Outcome.ending_of_error? herror]
  rw [Gateway.run_handle_of_answered (g := ⟨t, [i.stage, signer.stage time]⟩) dispatched]
  by_cases h : e.status = 200
  · refine iff_of_false ?_ (fun hne => hne h)
    rcases run_processAll_of_success i signer time call ((handler ctx args).run w).2
      (Response.isSuccess_ofError_iff.mpr h) with ⟨content, expires, hrun⟩ | ⟨detail, hrun⟩
    · intro heq
      rw [hrun] at heq
      injection heq with heq
      have hbody := congrArg Response.body heq
      cases hbody
    · intro heq
      rw [hrun] at heq
      injection heq with heq
      have hstatus : (500 : UInt16) = e.status := congrArg Response.status heq
      rw [h] at hstatus
      exact absurd hstatus (by decide)
  · refine iff_of_true ?_ h
    have failed : (Response.ofError e).isSuccess = false :=
      Bool.eq_false_iff.mpr fun success => h (Response.isSuccess_ofError_iff.mp success)
    rw [run_processAll_of_not_success i signer time call _ failed]

/-- A failure of the function that a slot of a batch invokes is reported in the slot iff it has not the
status of success. -/
theorem slot_of_error_iff {outer ctx : Context} {signature : Abi.Signature} {handler : Handler}
    {args : Arguments} {slots : List Plan} {k : Nat} {w : World σ} {e : Error} {response : Response}
    (hslot : slots[k]? = some (.invoke ctx signature handler args))
    (herror : ((handler ctx args).run ((Plan.courses (slots.take k)).run w).2).1.error? = some e)
    (answered : ((Plan.batch outer .multicall slots).course.run w).1 = .answered response) :
    ∃ responses, response = .ofBatch responses ∧
      (responses[k]?.map Response.slot = some (errorPayload e.message) ↔ e.status ≠ 200) := by
  obtain ⟨responses, hresponses, rfl⟩ := Plan.run_course_batch_eq_answered_iff.mp answered
  have ending := Plan.getElem?_run_courses slots k w
  rw [hresponses, List.getElem?_map, hslot, Option.map_some, Plan.run_course_invoke,
    Outcome.ending_of_error? herror] at ending
  have hresponse : responses[k]? = some (.ofError e) := by
    cases hk : responses[k]? with
    | none =>
      rw [hk] at ending
      cases ending
    | some response =>
      rw [hk] at ending
      cases ending
      rfl
  refine ⟨responses, rfl, ?_⟩
  rw [hresponse, Option.map_some, Option.some.injEq]
  exact Response.slot_ofError_iff

/-- A function that fails or breaks down is never shown to have succeeded, neither to the caller through
stages that mark and sign nor in the slot of a batch, exactly if the status of its error is not that of
success. -/
theorem failure_shown_iff (t : Table) (i : Integrity) (signer : Signer) (time : Option UInt64)
    (ctx : Context) (signature : Abi.Signature) (handler : Handler) (args : Arguments) (e : Error) :
    (∀ (call : Call) (w : World σ), t.plan (.ofCall call) = .invoke ctx signature handler args →
      ((handler ctx args).run w).1.error? = some e →
      ((((Gateway.mk t [i.stage, signer.stage time]).handle call).run w).1 =
        .answered (.ofError e) ↔ e.status ≠ 200)) ∧
    ∀ (outer : Context) (slots : List Plan) (k : Nat) (w : World σ) (response : Response),
      slots[k]? = some (.invoke ctx signature handler args) →
      ((handler ctx args).run ((Plan.courses (slots.take k)).run w).2).1.error? = some e →
      ((Plan.batch outer .multicall slots).course.run w).1 = .answered response →
      ∃ responses, response = .ofBatch responses ∧
        (responses[k]?.map Response.slot = some (errorPayload e.message) ↔ e.status ≠ 200) := by
  constructor
  · intro call w hplan herror
    exact run_handle_of_error_iff i signer time hplan herror
  · intro outer slots k w response hslot herror answered
    exact slot_of_error_iff hslot herror answered

end Failure

namespace DeclaredSuccess

/-- The signature of a function without parameters and results. -/
def signature : Abi.Signature := ⟨"f", [], [], .nonpayable⟩

/-- An error that a function declares with the status of success. -/
def gone : Error := .application 200 "gone"

/-- A function that always fails with that error. -/
def handler : Handler := fun _ _ => .done (.failure gone)

/-- A table with the function. -/
def table : Table := Table.standard.add signature handler

/-- The key 1. -/
def signer : Signer := ⟨⟨1, by decide, by decide⟩, 60⟩

/-- A gateway that marks nothing and signs with the key. -/
def gateway : Gateway := ⟨table, [Integrity.stage {}, signer.stage (some 0)]⟩

/-- A call of the function. -/
def call : Call := ⟨0, [0x26, 0x12, 0x1f, 0xf0], none⟩

theorem selector_signature : signature.selector = 0x26121ff0 := by
  have canonical : Bytes.ofString signature.canonical = [0x66, 0x28, 0x29] := by cbv
  rw [Abi.Signature.selector, canonical]
  decide +kernel

/-- The call invokes the function. -/
theorem plan_call :
    table.plan (.ofCall call) = .invoke (.ofCall call) signature handler [] := by
  have entry : table.get? 0x26121ff0 = some ⟨signature, .function handler⟩ := by
    rw [table, Table.get?_add, selector_signature, if_pos rfl]
  exact Table.planAt_eq_invoke_iff.mpr ⟨rfl, 0x26121ff0, [], rfl, entry, rfl⟩

/-- The call fails with the error. -/
theorem run_plan_call (w : World Memory) :
    (table.plan (.ofCall call)).course.run w = (.answered (.ofError gone), w) := by
  rw [plan_call, Plan.run_course_invoke]
  rfl

/-- A batch of this one call. -/
def batch : Plan :=
  .batch (.ofCall call) .multicall [.invoke (.ofCall call) signature handler []]

theorem run_batch (w : World Memory) :
    (batch.course.run w).1 = .answered (.ofBatch [.ofError gone]) :=
  Plan.run_course_batch_eq_answered_iff.mpr ⟨[.ofError gone], rfl, rfl⟩

end DeclaredSuccess

/-- A failure with the status of success is shown neither to the caller nor in the slot of a batch. -/
theorem declared_success_not_shown :
    DeclaredSuccess.table.plan (.ofCall DeclaredSuccess.call) =
      .invoke (.ofCall DeclaredSuccess.call) DeclaredSuccess.signature DeclaredSuccess.handler [] ∧
    ((DeclaredSuccess.gateway.handle DeclaredSuccess.call).run
      { store := Memory.empty, now := 0 }).1 ≠ .answered (.ofError DeclaredSuccess.gone) ∧
    ∃ responses, (DeclaredSuccess.batch.course.run { store := Memory.empty, now := 0 }).1 =
        .answered (.ofBatch responses) ∧
      responses[0]?.map Response.slot ≠ some (errorPayload DeclaredSuccess.gone.message) := by
  obtain ⟨shown, slot⟩ := @failure_shown_iff Memory _ DeclaredSuccess.table {}
    DeclaredSuccess.signer (some 0) (.ofCall DeclaredSuccess.call) DeclaredSuccess.signature
    DeclaredSuccess.handler [] DeclaredSuccess.gone
  have declared : ¬ DeclaredSuccess.gone.status ≠ 200 := fun h => h rfl
  refine ⟨DeclaredSuccess.plan_call, ?_, ?_⟩
  · intro h
    exact declared ((shown DeclaredSuccess.call { store := Memory.empty, now := 0 }
      DeclaredSuccess.plan_call rfl).mp h)
  · have answered := DeclaredSuccess.run_batch { store := Memory.empty, now := 0 }
    obtain ⟨responses, hresponses, hslot⟩ := slot _ _ 0 _ _ rfl rfl answered
    refine ⟨responses, answered.trans (congrArg Ending.answered hresponses), ?_⟩
    intro h
    exact declared (hslot.mp h)

/-- With the status of success a failure does not reach the caller as a message. -/
theorem failure_hidden : ¬ ∃ status,
    ((DeclaredSuccess.gateway.handle DeclaredSuccess.call).run
      { store := Memory.empty, now := 0 }).1 =
        .answered (.error status DeclaredSuccess.gone.message) := by
  rintro ⟨status, h⟩
  obtain ⟨handedOn, success, hprocess⟩ := Integrity.run_process {} DeclaredSuccess.call
    (.ofError DeclaredSuccess.gone) { store := Memory.empty, now := 0 }
  obtain ⟨content, expires, hrun⟩ :=
    run_processAll_of_marked DeclaredSuccess.signer (some 0) hprocess success
  rw [Gateway.run_handle_of_answered (g := DeclaredSuccess.gateway)
    (DeclaredSuccess.run_plan_call _), DeclaredSuccess.gateway, hrun] at h
  injection h with h
  have hbody := congrArg Response.body h
  cases hbody

end OffchainNames
