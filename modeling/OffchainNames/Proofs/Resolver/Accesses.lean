import OffchainNames.Proofs.Accesses
import OffchainNames.Proofs.Dispatch.Fold
import OffchainNames.Proofs.Resolver.Direct

/-!
# The arguments of a function are read

A function of the resolver reads its arguments as what it declares them to be
(`Operation.reads_of_mem_accesses`), and what data decodes to belongs to the declared types. So no access to a
decoded argument fails, but that of a registration to a ttl of more than 64 bits
(`Operation.error?_of_decodeInput`). No other error of a call is told as one of access: the answer to a call,
direct or inside of batches, is such an error for such a ttl only (`Resolver.accesses_succeed`).
-/

namespace OffchainNames

namespace Operation

/-- A function reads its arguments as what it declares them to be. -/
theorem reads_of_mem_accesses {op : Operation} {access : Arguments.Access}
    (member : access ∈ op.accesses) :
    ∃ ty, op.types[access.position]? = some ty ∧ access.reads ty = true := by
  have all : ∀ op ∈ Operation.all, ∀ access ∈ op.accesses,
      (op.types[access.position]?).any access.reads = true := by decide
  have declared := all op (by cases op <;> decide) access member
  rw [Option.any_eq_true] at declared
  exact declared

theorem mem_accesses_uint64 {op : Operation} {i : Nat} (member : .uint64 i ∈ op.accesses) :
    op = .register ∧ i = 1 := by
  cases op <;> simp_all [accesses]

variable {op : Operation} {payload : Bytes} {args : Arguments}

/-- Of the accesses of a function to decoded arguments, that of a registration to a ttl of more than 64 bits
fails, and no other one. -/
theorem error?_of_decodeInput (decoded : op.signature.decodeInput payload = .ok args)
    {access : Arguments.Access} (member : access ∈ op.accesses) {e : Error} :
    access.error? args = some e ↔ op = .register ∧ access = .uint64 1 ∧ e = Arguments.tooLarge 1 ∧
      ∃ node ttl, args = [.fixedBytes node 32, .uint ttl 32] ∧ UInt64.size ≤ ttl.toNat := by
  have belong := Abi.Signature.belong_of_decodeInput op.resolve_inputs decoded
  obtain ⟨ty, declared, reads⟩ := reads_of_mem_accesses member
  rw [Arguments.Access.error?_eq_some_iff belong declared reads]
  constructor
  · rintro ⟨i, w, bits, rfl, found, large, rfl⟩
    obtain ⟨rfl, rfl⟩ := mem_accesses_uint64 member
    cases takes_of_decodeInput decoded with
    | register node ttl =>
      obtain ⟨rfl, -⟩ := Abi.Value.uint.inj (Option.some.inj found)
      exact ⟨rfl, rfl, rfl, node, ttl, rfl, large⟩
  · rintro ⟨rfl, rfl, rfl, node, ttl, rfl, large⟩
    exact ⟨1, ttl, 32, rfl, rfl, large, rfl⟩

end Operation

section Run

variable {σ : Type} [Store σ]

/-- To look up an owner fails with the error of a store or inside the gateway. -/
theorem Ownership.not_toldAsAccess_of_run_verify {ownership : Ownership} {node : Word}
    {account : Address} {w : World σ} {cause : Error}
    (h : ((ownership.verify node account).run w).1 = .error cause) : ¬ cause.ToldAsAccess := by
  have internal (detail : String) : ¬ (Error.internal detail).ToldAsAccess :=
    Error.not_toldAsAccess_of_status (by decide : (500 : UInt16) ≠ 400)
  cases ownership with
  | stored =>
    simp only [verify, Course.run] at h
    split at h
    · cases h
      exact Error.not_toldAsAccess_store _
    · cases h
  | registry contract =>
    simp only [verify, registryOwner, Course.bind, Course.run] at h
    cases howner : readOwner w.ask.1 with
    | ok owner =>
      rw [howner] at h
      cases h
    | error cause' =>
      rw [howner] at h
      cases h
      unfold readOwner at howner
      split at howner
      · cases howner
        exact internal _
      · split at howner
        · cases howner
        · cases howner
        · cases howner
          exact internal _

theorem Authority.not_toldAsAccess_of_run_authorize {authority : Authority} {ctx : Context}
    {node : Word} {w : World σ} {cause : Error}
    (h : ((authority.authorize ctx node).run w).1 = .error cause) : ¬ cause.ToldAsAccess := by
  rw [authorize, Course.run_bind, run_signer] at h
  cases hsigner : authority.domain.signerAt ctx w.now with
  | error cause' =>
    rw [hsigner] at h
    cases h
    refine Error.not_toldAsAccess_of_status ?_
    rw [Domain.status_signerAt hsigner]
    decide
  | ok account =>
    simp only [hsigner, Course.run_bind] at h
    cases howns : ((authority.ownership.verify node account).run w).1 with
    | error cause' =>
      rw [howns] at h
      cases h
      exact Ownership.not_toldAsAccess_of_run_verify howns
    | ok owns =>
      rw [howns] at h
      cases owns with
      | true => cases h
      | false =>
        cases h
        exact Error.not_toldAsAccess_of_status (by decide : (401 : UInt16) ≠ 400)

/-- The arguments of a batch are one list of byte strings, which is read. -/
theorem Abi.Signature.bytesArray_of_decodeInput {payload : Bytes} {args : Arguments}
    (read : Abi.Signature.multicall.decodeInput payload = .ok args) :
    ∃ calls : List Bytes, args = [.array (calls.map .bytes)] ∧ args.bytesArray 0 = .ok calls := by
  have belong := belong_of_decodeInput (readable_bytesArray "data").resolved read
  obtain ⟨value, rest, belongs, none, rfl⟩ := List.forall₂_cons_right_iff.mp belong
  obtain rfl := List.forall₂_nil_right_iff.mp none
  obtain ⟨values, all, rfl⟩ := belongs_array_iff.mp belongs
  obtain ⟨calls, rfl⟩ := eq_map_of_belong_bytes all
  exact ⟨calls, rfl, Arguments.bytesArray_map calls⟩

namespace Resolver

variable {r : Resolver} {op : Operation} {ctx : Context} {args : Arguments} {w : World σ}

/-- A call that does not come to a function is refused with no error that is told as one of access. -/
theorem not_toldAsAccess_of_planAt {levels : Nat} {ctx' : Context} {cause : Error}
    (refused : r.table.planAt levels ctx = .refused ctx' cause) : ¬ cause.ToldAsAccess := by
  rcases Table.cases_of_planAt_refused refused with hsplit | ⟨selector, rfl⟩ | rfl |
    ⟨selector, payload, entry, held, hargs | ⟨args, batch, hargs, hcalls⟩⟩
  · unfold splitSelector at hsplit
    split at hsplit
    · cases hsplit
      exact Error.not_toldAsAccess_malformedRequest (by decide)
    · cases hsplit
  · exact Error.not_toldAsAccess_of_status (by decide : (404 : UInt16) ≠ 400)
  · exact @Error.not_toldAsAccess_malformedRequest "multicall nested too deeply" "" (by decide)
  · unfold Abi.Signature.decodeInput at hargs
    split at hargs
    · cases hargs
    · cases hargs
      simp only [String.append_assoc]
      exact Error.not_toldAsAccess_malformedRequest (by decide)
  · -- The argument of a batch that is decoded is read.
    rcases get?_table_eq_some_iff.mp held with ⟨-, rfl⟩ | ⟨op, -, rfl⟩
    · obtain ⟨calls, -, hread⟩ := Abi.Signature.bytesArray_of_decodeInput hargs
      rw [hread] at hcalls
      cases hcalls
    · cases batch

/-- Nobody is let give a command with an error that is told as one of access. -/
theorem not_toldAsAccess_of_run_permit {node : Word} {command : Command} {cause : Error}
    (h : ((r.permit ctx node command).run w).1 = .error cause) : ¬ cause.ToldAsAccess := by
  cases hregisters : command.registers with
  | true =>
    obtain ⟨ttl, rfl⟩ := Command.eq_register hregisters
    refine Error.not_toldAsAccess_of_status ?_
    rw [Domain.status_signerAt h]
    decide
  | false =>
    rw [permit_eq_authorize hregisters] at h
    exact Authority.not_toldAsAccess_of_run_authorize h

theorem not_toldAsAccess_of_objection {command : Command} {cause : Error}
    (h : r.objection? command = some cause) : ¬ cause.ToldAsAccess := by
  unfold objection? at h
  split at h
  · split at h
    · cases h
      exact Error.not_toldAsAccess_of_message rfl (by decide : Apart "reserved key: " _)
    · cases h
  · split at h
    · cases h
      exact @Error.not_toldAsAccess_of_message _ "cannot transfer to the zero address" "" rfl (by decide)
    · cases h
  · cases h

/-- Once its arguments are read, a function fails with no error that is told as one of access. -/
theorem not_toldAsAccess_of_run_handler {node : Word} {request : Request} {cause : Error}
    (read : op.read args = .ok (node, request))
    (failed : ((r.handler op ctx args).run w).1 = .failure cause) : ¬ cause.ToldAsAccess := by
  unfold handler at failed
  simp only [read] at failed
  cases request with
  | query query =>
    simp only [answer, Course.run] at failed
    cases hrecord : Store.domain w.store node with
    | error c =>
      rw [hrecord] at failed
      cases failed
      exact Error.not_toldAsAccess_store c
    | ok record =>
      rw [hrecord] at failed
      cases failed
  | command command =>
    unfold execute at failed
    cases hobjection : r.objection? command with
    | some e =>
      simp only [hobjection] at failed
      cases failed
      exact not_toldAsAccess_of_objection hobjection
    | none =>
      simp only [hobjection, Course.run_bind] at failed
      cases hpermit : ((r.permit ctx node command).run w).1 with
      | error e =>
        rw [hpermit] at failed
        cases failed
        exact not_toldAsAccess_of_run_permit hpermit
      | ok signer =>
        simp only [hpermit, Course.run] at failed
        split at failed
        · cases failed
        · cases failed
          exact Error.not_toldAsAccess_store _

/-- A registration for a ttl of more than 64 bits. -/
def Overlong (r : Resolver) (plan : Plan) : Prop :=
  ∃ ctx node ttl, plan = .invoke ctx Operation.register.signature (r.handler .register)
    [.fixedBytes node 32, .uint ttl 32] ∧ UInt64.size ≤ ttl.toNat

/-- A registration for such a ttl is answered with the error of access to it. -/
theorem Overlong.answered {plan : Plan} (overlong : r.Overlong plan) :
    (plan.course.run w).1 = .answered (.ofError (Arguments.tooLarge 1)) := by
  obtain ⟨ctx, node, ttl, rfl, large⟩ := overlong
  have unread : Operation.register.read [.fixedBytes node 32, .uint ttl 32] =
      .error (Arguments.tooLarge 1) := by
    have failed : Arguments.uint64 [.fixedBytes node 32, .uint ttl 32] 1 =
        .error (Arguments.tooLarge 1) := by
      rw [@Arguments.uint64_of_found _ 1 32 ttl rfl, if_neg (Nat.not_lt.mpr large)]
    have word : Arguments.word [.fixedBytes node 32, .uint ttl 32] 0 = .ok node := rfl
    rw [← Except.error?_eq_some_iff, Operation.error?_read]
    simp [Operation.accesses, Arguments.Access.error?, word, failed]
  rw [Plan.run_course_invoke, handler, unread]
  rfl

/-- Where the arguments of a function are not read, they are those of such a registration. -/
theorem overlong_of_read {payload : Bytes} {cause : Error}
    (decoded : op.signature.decodeInput payload = .ok args) (unread : op.read args = .error cause) :
    r.Overlong (.invoke ctx op.signature (r.handler op) args) ∧ cause = Arguments.tooLarge 1 := by
  have failed := Except.error?_eq_some_iff.mpr unread
  rw [op.error?_read] at failed
  obtain ⟨access, member, hfailed⟩ := List.exists_of_findSome?_eq_some failed
  obtain ⟨rfl, -, rfl, node, ttl, rfl, large⟩ :=
    (Operation.error?_of_decodeInput decoded member).mp hfailed
  exact ⟨⟨ctx, node, ttl, rfl, large⟩, rfl⟩

/-- A function that is invoked with decoded arguments and ends with an error of access is such a
registration. -/
theorem overlong_of_ending {payload : Bytes} {e : Error}
    (decoded : op.signature.decodeInput payload = .ok args) (accessError : Arguments.AccessError e)
    (answered : ((r.handler op ctx args).run w).1.ending op.signature = .answered (.ofError e)) :
    r.Overlong (.invoke ctx op.signature (r.handler op) args) ∧ e = Arguments.tooLarge 1 := by
  have failure {content : Bytes} {ttl : Option UInt64} : Response.ok content ttl ≠ .ofError e := by
    intro same
    have status : 200 = e.status := congrArg Response.status same
    rw [accessError.status] at status
    exact absurd status (by decide)
  cases hread : op.read args with
  | error cause =>
    have ran : (r.handler op ctx args).run w = (.failure cause, w) := by
      unfold handler
      rw [hread]
      rfl
    obtain ⟨overlong, rfl⟩ := overlong_of_read decoded hread
    rw [ran] at answered
    have same : Response.ofError (Arguments.tooLarge 1) = .ofError e := Ending.answered.inj answered
    exact ⟨overlong, (Arguments.AccessError.eq_of_ofError (.tooLarge 1) accessError same).symm⟩
  | ok asked =>
    obtain ⟨node, request⟩ := asked
    have untold (cause : Error) := @not_toldAsAccess_of_run_handler _ _ r op ctx args w node request cause hread
    have effect := r.effect_handler op ctx args w
    generalize (r.handler op ctx args).run w = ran at effect answered untold
    cases effect with
    | refused status kept =>
      have same := Ending.answered.inj answered
      exact absurd ⟨e, accessError, same⟩ (untold _ rfl)
    | rejected requested unobjected permitted applied =>
      have same := Ending.answered.inj answered
      exact absurd ⟨e, accessError, same⟩ (Error.not_toldAsAccess_store _)
    | changed requested unobjected permitted applied =>
      rw [ending_reply_empty] at answered
      exact absurd (Ending.answered.inj answered) failure
    | answered requested found =>
      obtain rfl := (Operation.takes_of_decodeInput decoded).eq_operation requested
      rw [Query.ending_reply] at answered
      exact absurd (Ending.answered.inj answered) failure

/-- A call, direct or inside of batches, is answered with an error of access iff it is a registration for a
ttl of more than 64 bits. -/
theorem answered_accessError_iff {plan : Plan} (inside : plan ∈ (r.table.plan ctx).subplans)
    (w : World σ) {e : Error} (accessError : Arguments.AccessError e) :
    (plan.course.run w).1 = .answered (.ofError e) ↔ r.Overlong plan ∧ e = Arguments.tooLarge 1 := by
  constructor
  · intro answered
    cases plan with
    | refused ctx' cause =>
      obtain ⟨inner, ctx'', -, hplan⟩ := Table.of_mem_subplans_planAt inside
      rw [Plan.run_course_refused] at answered
      have same : Response.ofError cause = .ofError e := Ending.answered.inj answered
      exact absurd ⟨e, accessError, same⟩ (not_toldAsAccess_of_planAt hplan.symm)
    | batch ctx' signature slots =>
      obtain ⟨inner, ctx'', -, hplan⟩ := Table.of_mem_subplans_planAt inside
      obtain rfl := r.built_table.signature_of_planAt hplan.symm
      obtain ⟨responses, -, same⟩ := Plan.run_course_batch_eq_answered_iff.mp answered
      have status : e.status = 200 := congrArg Response.status same
      rw [accessError.status] at status
      exact absurd status (by decide)
    | invoke ctx' signature handler args =>
      obtain ⟨-, op, payload, rfl, rfl, -, decoded⟩ := invoked_of_mem_subplans inside
      rw [Plan.run_course_invoke] at answered
      exact overlong_of_ending decoded accessError answered
  · rintro ⟨overlong, rfl⟩
    exact overlong.answered

end Resolver

end Run

namespace Resolver

/-- Whatever data is decoded for a function of the resolver, or for a batch, holds as many arguments as are
declared, of the types that are declared. The accesses of the functions, which decide whether the arguments
are read, do not fail, but for that of a registration to a ttl of more than 64 bits; and the answer to a call,
direct or inside of batches, is an error of access for such a registration only. -/
theorem accesses_succeed (r : Resolver) :
    (∀ (op : Operation) (args : Arguments),
      Except.error? (op.read args) = op.accesses.findSome? (·.error? args)) ∧
    (∀ (op : Operation) (payload : Bytes) (args : Arguments),
      op.signature.decodeInput payload = .ok args →
        args.length = op.signature.inputs.length ∧
        (∃ types, Abi.Param.resolveAll op.signature.inputs = .ok types ∧
          List.Forall₂ Abi.Belongs args types) ∧
        ∀ access ∈ op.accesses, ∀ e, access.error? args = some e ↔
          op = .register ∧ access = .uint64 1 ∧ e = Arguments.tooLarge 1 ∧
            ∃ node ttl, args = [.fixedBytes node 32, .uint ttl 32] ∧ UInt64.size ≤ ttl.toNat) ∧
    (∀ (payload : Bytes) (args : Arguments),
      Abi.Signature.multicall.decodeInput payload = .ok args →
        args.length = Abi.Signature.multicall.inputs.length ∧
        (∃ types, Abi.Param.resolveAll Abi.Signature.multicall.inputs = .ok types ∧
          List.Forall₂ Abi.Belongs args types) ∧
        ∃ calls, args.bytesArray 0 = .ok calls) ∧
    ∀ (ctx : Context) (plan : Plan), plan ∈ (r.table.plan ctx).subplans →
      ∀ {σ : Type} [Store σ] (w : World σ) (e : Error), Arguments.AccessError e →
        ((plan.course.run w).1 = .answered (.ofError e) ↔
          r.Overlong plan ∧ e = Arguments.tooLarge 1) := by
  have length {signature : Abi.Signature} {types : List Abi.Ty} {args : Arguments}
      (resolved : Abi.Param.resolveAll signature.inputs = .ok types)
      (belong : List.Forall₂ Abi.Belongs args types) : args.length = signature.inputs.length := by
    rw [belong.length_eq, (Abi.Param.resolveAll_eq_ok_iff.mp resolved).length_eq]
  refine ⟨Operation.error?_read, ?_, ?_, ?_⟩
  · intro op payload args decoded
    have belong := Abi.Signature.belong_of_decodeInput op.resolve_inputs decoded
    refine ⟨length op.resolve_inputs belong, ⟨_, op.resolve_inputs, belong⟩, ?_⟩
    intro access member e
    exact Operation.error?_of_decodeInput decoded member
  · intro payload args decoded
    have resolved := (Abi.readable_bytesArray "data").resolved
    have belong := Abi.Signature.belong_of_decodeInput resolved decoded
    obtain ⟨calls, -, read⟩ := Abi.Signature.bytesArray_of_decodeInput decoded
    exact ⟨length resolved belong, ⟨_, resolved, belong⟩, calls, read⟩
  · intro ctx plan inside σ _ w e accessError
    exact answered_accessError_iff inside w accessError

/-! ## A registration for too long -/

namespace OverlongRegistration

/-- Node 1 and a ttl that is just too large for 64 bits. -/
def args : Arguments := [.fixedBytes 1 32, .uint 18446744073709551616 32]

/-- A call of the registration with these arguments. -/
def ctx : Context :=
  .ofCall ⟨0xc0, Bytes.ofBits Operation.register.selector ++ Abi.encode args, none⟩

theorem decoded : Operation.register.signature.decodeInput (Abi.encode args) = .ok args := by
  have readable : Abi.Readable Operation.register.signature.inputs Operation.register.types :=
    ⟨Operation.register.resolve_inputs, rfl, by decide⟩
  exact Abi.Signature.decodeInput_encode readable rfl (by decide)

theorem plan_ctx (r : Resolver) : r.table.plan ctx =
    .invoke ctx Operation.register.signature (r.handler .register) args :=
  plan_of_calls ⟨_, splitSelector_append _ _, decoded⟩

end OverlongRegistration

/-- The registration decodes, its ttl is not read and the answer tells so; the calls of an empty batch are
read. -/
theorem long_registration_unread :
    Operation.register.signature.decodeInput (Abi.encode OverlongRegistration.args) =
        .ok OverlongRegistration.args ∧
      (Arguments.Access.uint64 1).error? OverlongRegistration.args = some (Arguments.tooLarge 1) ∧
      ((TwoWrites.resolver.table.dispatch OverlongRegistration.ctx).run
        { store := Memory.empty, now := 0 }).1 = .answered (.ofError (Arguments.tooLarge 1)) ∧
      Abi.Signature.multicall.decodeInput (Abi.encode [.array []]) = .ok [.array []] ∧
      ∃ calls, Arguments.bytesArray [.array []] 0 = .ok calls := by
  obtain ⟨-, functions, batches, answers⟩ := accesses_succeed TwoWrites.resolver
  have empty : Abi.Signature.multicall.decodeInput (Abi.encode [.array []]) = .ok [.array []] :=
    @Abi.Signature.decodeInput_multicall [] (by decide)
  have large : UInt64.size ≤ (18446744073709551616 : Word).toNat := by decide
  refine ⟨OverlongRegistration.decoded, ?_, ?_, empty, (batches _ _ empty).2.2⟩
  · obtain ⟨-, -, each⟩ := functions .register _ _ OverlongRegistration.decoded
    exact (each (.uint64 1) (by decide) _).mpr ⟨rfl, rfl, rfl, 1, _, rfl, large⟩
  · have overlong : TwoWrites.resolver.Overlong (TwoWrites.resolver.table.plan OverlongRegistration.ctx) :=
      ⟨OverlongRegistration.ctx, 1, _, OverlongRegistration.plan_ctx _, large⟩
    exact (answers _ _ (Plan.mem_subplans_self _) _ _ (.tooLarge 1)).mpr ⟨overlong, rfl⟩

end Resolver

end OffchainNames
