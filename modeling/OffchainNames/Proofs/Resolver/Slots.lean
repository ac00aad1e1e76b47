import OffchainNames.Proofs.Dispatch.Slots
import OffchainNames.Proofs.Resolver.Direct
import OffchainNames.Proofs.Resolver.WriteSafety

/-!
# The slots of a batch of calls to a resolver

No data that a resolver answers with is the report of an error (`Resolver.told_of_run_planAt`): a function that
reads answers with one value, one that writes with nothing, and a batch with one list. So each slot of a batch
tells whether its call was answered with success, and otherwise the message
(`Resolver.slots_unambiguous`).
-/

namespace OffchainNames

/-- The value that a query gives starts with zeros. -/
theorem Query.take_encode_value (query : Query) (record : Option Record) :
    (Abi.encode [query.value record]).take 4 = [0, 0, 0, 0] := by
  cases query with
  | text | address | contenthash => exact Abi.take_encode_of_tailed rfl
  | account =>
    simp only [value]
    split
    · exact Abi.take_encode_address _
    · exact Abi.take_encode_address 0

/-- The byte strings of a list are no longer than its encoding. -/
theorem Abi.length_le_of_mem {items : List Bytes} {item : Bytes} (member : item ∈ items) :
    item.length ≤ (encode [.array (items.map .bytes)]).length := by
  rw [length_encode_array]
  induction items with
  | nil => cases member
  | cons first rest ih =>
    rw [List.map_cons, Value.parts, Part.totalSize_cons, Value.size_bytes]
    rcases List.mem_cons.mp member with rfl | member
    · have padded := item.length_le_padRight
      omega
    · have others := ih member
      omega

namespace Resolver

variable {σ : Type} [Store σ] {r : Resolver} {ctx : Context} {w : World σ} {response : Response}

theorem finishes_table (r : Resolver) : r.table.Finishes σ := by
  intro selector signature handler held ctx args w
  rcases get?_table_eq_some_iff.mp held with ⟨-, hentry⟩ | ⟨op, -, hentry⟩
  · cases hentry
  · cases hentry
    exact r.run_handler_ne_never op ctx args w

/-- A function is answered with an error, or with data that is no report of one. -/
theorem told_of_ending {op : Operation} {args : Arguments} (takes : op.Takes args)
    (answered : ((r.handler op ctx args).run w).1.ending op.signature = .answered response) :
    response.Told := by
  have effect := r.effect_handler op ctx args w
  generalize (r.handler op ctx args).run w = ran at effect answered
  cases effect with
  | refused status kept =>
    cases answered
    exact .ofError status
  | rejected requested unobjected permitted applied =>
    cases answered
    exact .ofError (by decide : (400 : UInt16) ≠ 200)
  | changed requested unobjected permitted applied =>
    rw [ending_reply_empty] at answered
    cases answered
    exact .ok none (by decide)
  | answered requested found =>
    obtain rfl := takes.eq_operation requested
    rw [Query.ending_reply] at answered
    cases answered
    refine .ok _ ?_
    rw [Query.take_encode_value]
    decide

/-- Every call is answered with an error, or with data that is no report of one. -/
theorem told_of_run_planAt {levels : Nat}
    (answered : ((r.table.planAt levels ctx).course.run w).1 = .answered response) :
    response.Told := by
  cases hplan : r.table.planAt levels ctx with
  | refused ctx' cause =>
    rw [hplan, Plan.run_course_refused] at answered
    cases answered
    exact .ofError (Table.status_of_planAt_refused hplan)
  | invoke ctx' signature handler args =>
    have inside : .invoke ctx' signature handler args ∈ (r.table.planAt levels ctx).subplans := by
      rw [hplan]
      exact Plan.mem_subplans_self _
    obtain ⟨-, op, payload, rfl, rfl, -, decoded⟩ := invoked_of_mem_subplans inside
    rw [hplan, Plan.run_course_invoke] at answered
    exact told_of_ending (Operation.takes_of_decodeInput decoded) answered
  | batch ctx' signature slots =>
    obtain rfl := r.built_table.signature_of_planAt hplan
    rw [hplan] at answered
    obtain ⟨responses, -, rfl⟩ := Plan.run_course_batch_eq_answered_iff.mp answered
    refine .ok none ?_
    rw [Abi.take_encode_of_tailed rfl]
    decide

/-- A report of an error is read back as its text. A batch of calls to a resolver, with whatever calldata and
inside of other batches or not, is answered with a slot for each of its calls; if the data of the answer is
shorter than `2 ^ 64` bytes, it decodes to the slots, and each of them is the report of a message iff its call
was answered with another status than 200 and this message, and no report iff it was answered with the status
200. -/
theorem slots_unambiguous (r : Resolver) :
    (∀ text : String, (Bytes.ofString text).length < UInt64.size →
      decodeErrorPayload? (errorPayload text) = some text) ∧
    ∀ {σ : Type} [Store σ] (ctx : Context) (calls : List Bytes) (w : World σ), ctx.Batches calls →
      ctx.depth < maxBatches → ∃ (content : Bytes) (slots : List Bytes),
        (r.table.dispatch ctx).run w = (.answered (.ok content none), r.table.after ctx calls w) ∧
        slots.length = calls.length ∧
        (content.length < UInt64.size →
          Abi.Signature.multicall.decodeOutput content = .ok [.array (slots.map .bytes)] ∧
          ∀ k (inside : k < calls.length), ∃ (response : Response) (slot : Bytes),
            ((r.table.dispatch (ctx.nested calls[k])).run (r.table.after ctx (calls.take k) w)).1 =
              .answered response ∧
            slots[k]? = some slot ∧
            (∀ text, decodeErrorPayload? slot = some text ↔
              response.status ≠ 200 ∧ response.message? = some text) ∧
            (decodeErrorPayload? slot = none ↔ response.status = 200)) := by
  refine ⟨fun text => decodeErrorPayload?_errorPayload, ?_⟩
  intro σ _ ctx calls w batches room
  obtain ⟨responses, hrun, length, each⟩ := Table.run_dispatch_of_room r.built_table r.finishes_table
    r.get?_table_multicall batches room w
  refine ⟨_, responses.map Response.slot, hrun, by rw [List.length_map, length], ?_⟩
  intro short
  refine ⟨Abi.Signature.decodeOutput_multicall short, ?_⟩
  intro k inside
  obtain ⟨response, hresponse, hdispatch⟩ := each k inside
  have slot : (responses.map Response.slot)[k]? = some response.slot := by
    rw [List.getElem?_map, hresponse, Option.map_some]
  have told : response.Told := told_of_run_planAt hdispatch
  have fits := Nat.lt_of_le_of_lt (Abi.length_le_of_mem (List.mem_of_getElem? slot)) short
  exact ⟨response, response.slot, hdispatch, slot, told.decode_slot fits⟩

/-! ## A failure and an inner batch

A batch of a call that is too short and a batch without calls.
-/

namespace InnerBatch

/-- The calldata of a batch. -/
def batchData (calls : List Bytes) : Bytes :=
  Bytes.ofBits Abi.Signature.multicall.selector ++ Abi.encode [.array (calls.map .bytes)]

/-- The calls of the outer batch. -/
def calls : List Bytes := [[0x00], batchData []]

/-- The context of the outer batch. -/
def context : Context := ⟨0, batchData calls, batchData calls, none, 0⟩

/-- What the calls are answered with. -/
def responses : List Response :=
  [.error 400 "malformed request: calldata must be at least 4 bytes, got 1", .ofBatch []]

theorem batches_context : context.Batches calls := by
  refine Table.batches_of_encodeCall (Abi.Signature.encodeCall_multicall calls) ?_
  show (batchData calls).length < UInt64.size
  rw [batchData, List.length_append, Bytes.length_ofBits, Abi.length_encode_array]
  set_option maxRecDepth 4096 in decide

theorem batches_nested : (context.nested (batchData [])).Batches [] := by
  refine Table.batches_of_encodeCall (Abi.Signature.encodeCall_multicall []) ?_
  show (batchData []).length < UInt64.size
  rw [batchData, List.length_append, Bytes.length_ofBits, Abi.length_encode_array]
  decide

theorem run_dispatch_nested (w : World Memory) :
    (TwoWrites.resolver.table.dispatch (context.nested (batchData []))).run w =
      (.answered (.ofBatch []), w) := by
  have answered : ((Plan.courses (([] : List Bytes).map fun data => TwoWrites.resolver.table.plan
      ((context.nested (batchData [])).nested data))).run w).1 = ([] : List Response).map .answered := by
    rw [List.map_nil, Plan.run_courses_nil, List.map_nil]
  rw [Table.run_dispatch_of_batches TwoWrites.resolver.get?_table_multicall batches_nested
    (by decide) answered]
  rfl

theorem run_dispatch_context (w : World Memory) :
    ((TwoWrites.resolver.table.dispatch context).run w).1 = .answered (.ofBatch responses) := by
  have first := TwoWrites.resolver.table.run_dispatch_short context w
  have second := run_dispatch_nested w
  rw [Table.dispatch] at first second
  have answered : ((Plan.courses (calls.map fun data => TwoWrites.resolver.table.plan
      (context.nested data))).run w).1 = responses.map .answered := by
    rw [calls, List.map_cons, List.map_cons, List.map_nil, Plan.run_courses_cons,
      Plan.run_courses_cons, first, second, Plan.run_courses_nil]
    rfl
  rw [Table.run_dispatch_of_batches TwoWrites.resolver.get?_table_multicall batches_context
    (by decide) answered]

theorem length_content :
    (Abi.encode [.array ((responses.map Response.slot).map .bytes)]).length < UInt64.size := by
  rw [Abi.length_encode_array]
  set_option maxRecDepth 4096 in decide

end InnerBatch

/-- The slot of the call that is too short is the report of that, and the one of the inner batch is no
report. -/
theorem inner_batch_told : ∃ (content first second : Bytes),
    ((TwoWrites.resolver.table.dispatch InnerBatch.context).run TwoWrites.vacant).1 =
      .answered (.ok content none) ∧
    Abi.Signature.multicall.decodeOutput content = .ok [.array [.bytes first, .bytes second]] ∧
    decodeErrorPayload? first =
      some "malformed request: calldata must be at least 4 bytes, got 1" ∧
    decodeErrorPayload? second = none := by
  obtain ⟨content, slots, ran, length, told⟩ := (slots_unambiguous TwoWrites.resolver).2
    InnerBatch.context InnerBatch.calls TwoWrites.vacant InnerBatch.batches_context (by decide)
  have answer := InnerBatch.run_dispatch_context TwoWrites.vacant
  rw [ran] at answer
  obtain rfl : content = Abi.encode [.array ((InnerBatch.responses.map Response.slot).map .bytes)] :=
    congrArg Response.data (Ending.answered.inj answer)
  obtain ⟨decoded, each⟩ := told InnerBatch.length_content
  obtain ⟨failure, first, hfailure, hfirst, report, -⟩ := each 0 (by decide)
  obtain ⟨success, second, hsuccess, hsecond, -, plain⟩ := each 1 (by decide)
  have short := TwoWrites.resolver.table.run_dispatch_short InnerBatch.context TwoWrites.vacant
  obtain rfl : failure = .error 400 "malformed request: calldata must be at least 4 bytes, got 1" :=
    Ending.answered.inj (hfailure.symm.trans (congrArg Prod.fst short))
  have inner := InnerBatch.run_dispatch_nested
    (TwoWrites.resolver.table.after InnerBatch.context [[0x00]] TwoWrites.vacant)
  obtain rfl : success = .ofBatch [] :=
    Ending.answered.inj (hsuccess.symm.trans (congrArg Prod.fst inner))
  have both : slots = [first, second] := by
    refine List.ext_getElem? fun k => ?_
    match k with
    | 0 => exact hfirst
    | 1 => exact hsecond
    | k + 2 => exact List.getElem?_eq_none (by rw [length]; simp [InnerBatch.calls])
  subst both
  exact ⟨_, first, second, congrArg Prod.fst ran, decoded, (report _).mpr ⟨by decide, rfl⟩,
    plain.mpr rfl⟩

end Resolver

end OffchainNames
