import OffchainNames.Proofs.Curve.Signature
import OffchainNames.Proofs.Resolver.Gateway

/-!
# Nothing is written without an authorization

One signature covers all calls inside a call, and owners change while they are made: a node is
registered, written to, given away. Still, what is stored for a node changes only if the call carries an
authorization that counts, of a signer that owned the node before the call, or before the call nobody
did. The invariant is that the contents of the node are those before the call until a signer of that
kind is found (`Resolver.Guarded`).
-/

namespace OffchainNames

namespace Resolver

variable {r : Resolver} {op : Operation} {ctx : Context} {args : Arguments}

/-- A function changes the contents of a node only for a signer who may give a command about it, and who
owns the node unless nobody does. -/
theorem Effect.content {w w' : World Memory} {outcome : Outcome}
    (effect : r.Effect op ctx args w (outcome, w')) (hstored : r.authority.ownership = .stored)
    (n : Word) : w'.store.content n = w.store.content n ∨
      ∃ signer, r.authority.domain.signerAt ctx w.now = .ok signer ∧
        (Store.owner w.store n = .ok none ∨ Store.owner w.store n = .ok (some signer)) := by
  rcases effect.kept_or_changed n with kept | ⟨command, signer, -, -, -, permitted, unrefused, -⟩
  · exact .inl (by rw [Memory.content, kept, Memory.content])
  · refine .inr ⟨signer, permitted.signed, ?_⟩
    cases hregisters : command.registers with
    | false => exact .inr (permitted.owns hstored hregisters)
    | true =>
      obtain ⟨ttl, rfl⟩ := Command.eq_register hregisters
      exact .inl (Memory.owner_of_register unrefused)

/-- While a call is carried out: the contents of a node are those before the call, or the call has a
signer who owned the node before it, unless nobody did. -/
structure Guarded (r : Resolver) (ctx : Context) (before : World Memory) (n : Word)
    (w : World Memory) : Prop where
  now : w.now = before.now
  /-- The contents are those before the call, or they may change. -/
  content : w.store.content n = before.store.content n ∨
    ∃ signer, r.authority.domain.signerAt ctx before.now = .ok signer ∧
      (Store.owner before.store n = .ok none ∨ Store.owner before.store n = .ok (some signer))

/-- A function that is invoked inside a call keeps the node guarded. -/
theorem Guarded.run_handler {root : Context} {before w : World Memory} {n : Word}
    (hstored : r.authority.ownership = .stored) (inherits : ctx.Inherits root)
    (guarded : r.Guarded root before n w) :
    r.Guarded root before n ((r.handler op ctx args).run w).2 := by
  refine ⟨(Course.run_now _ w).trans guarded.now, ?_⟩
  rcases guarded.content with same | allowed
  · have effect := r.effect_handler op ctx args w
    rcases effect.content hstored n with kept | ⟨signer, signed, owns⟩
    · exact .inl (kept.trans same)
    · refine .inr ⟨signer, ?_, ?_⟩
      · rw [← Domain.signerAt_of_inherits inherits, ← guarded.now]
        exact signed
      · rw [Memory.owner_eq, ← same, ← Memory.owner_eq]
        exact owns
  · exact .inr allowed

/-- Dispatching a call keeps every node guarded. -/
theorem guarded_run_plan (hstored : r.authority.ownership = .stored) (root : Context)
    (before : World Memory) (n : Word) :
    r.Guarded root before n ((r.table.plan root).course.run before).2 := by
  refine Plan.run_course_preserves ?_ ⟨rfl, .inl rfl⟩
  intro ctx signature handler args w visited guarded
  obtain ⟨inherits, op, payload, -, rfl, -, -⟩ :=
    invoked_of_mem_subplans (Plan.mem_subplans_of_mem_visits visited)
  exact guarded.run_handler hstored inherits

/-- The contents of a node change only if the call carries an authorization for itself that has not
ended, of a signer who owned the node before the call, unless nobody did. -/
theorem authorized_of_content_changed (r : Resolver) (hstored : r.authority.ownership = .stored)
    (call : Call) (w : World Memory) (n : Word)
    (changed : ((r.gateway.handle call).run w).2.store.content n ≠ w.store.content n) :
    ∃ auth signer, call.authorization = some auth ∧ auth.message.callData = call.data ∧
      auth.message.sender = call.recipient ∧ w.now ≤ auth.message.expiration ∧
      auth.recover r.authority.domain = .ok signer ∧
      (Store.owner w.store n = .ok none ∨ Store.owner w.store n = .ok (some signer)) := by
  obtain ⟨response, answer, w', dispatched, -, handled⟩ := r.run_handle call w
  have guarded := guarded_run_plan hstored (.ofCall call) w n
  rw [dispatched] at guarded
  rcases guarded.content with same | ⟨signer, signed, owns⟩
  · rw [handled, Integrity.content_settle] at changed
    exact absurd same changed
  · obtain ⟨auth, hauth, hdata, hsender, hnow, hrecover⟩ := Domain.signerAt_eq_ok_iff.mp signed
    exact ⟨auth, signer, hauth, hdata, hsender, hnow, hrecover, owns⟩

/-! ## A batch of two writes

One batch registers node 1 and clears the content hash of node 2. It is signed with the key of an
account.
-/

namespace TwoWrites

/-- The account that signs. -/
def account : Address := 0x7e5f4552091a69125d5dfcb7b8c2659029395bdf

/-- The resolver, whose owners are those in the store. -/
def resolver : Resolver := ⟨⟨⟨"OffchainNames", "1", 1, 0xd0⟩, .stored⟩, []⟩

/-- The calldata that registers node 1. -/
def registration : Bytes :=
  Bytes.ofBits Operation.register.selector ++ Abi.encode [.fixedBytes 1 32, .uint 60 32]

/-- The calldata that clears the content hash of node 2. -/
def clearing : Bytes :=
  Bytes.ofBits Operation.setContenthash.selector ++ Abi.encode [.fixedBytes 2 32, .bytes []]

/-- The calldata of both together. -/
def data : Bytes :=
  Bytes.ofBits (0xac9650d8 : Selector) ++ Abi.encode [.array [.bytes registration, .bytes clearing]]

/-- What the account signs. -/
def message : Message := ⟨data, 0xc0, 4102444800⟩

/-- The signature of the account. -/
def signature : Signature :=
  ⟨0x86d57051ad8762495c97959e738cb56f5f2bd0da4078f6e9c0004e8c52837edf,
    0x2f9aba6b535799e82a11a58d60af9665c03c4901fefdf2525b4380d5257c4b48, true⟩

/-- The authorization that the account gives. -/
def authorization : Authorization := ⟨signature.toBytes, message⟩

/-- The call with an authorization or without. -/
def request (authorization : Option Authorization) : Call := ⟨0xc0, data, authorization⟩

theorem keccak256_of_eq {content bytes : Bytes} {digest : Word} (forced : content = bytes)
    (h : keccak256 bytes = digest) : keccak256 content = digest := by
  rw [forced, h]

theorem separator_domain : resolver.authority.domain.separator =
    0xaceae3919ebdf36e45ac407086963ed6861acff114593c99b6e1467645703b64 := by
  have type : digestText Domain.type =
      0x8b73c3c69bb8fe3d512ecc4cf759cc79239f7b179b0ffacaa9a75d522b39400f := by
    refine keccak256_of_eq (by conv => lhs; cbv) ?_
    decide +kernel
  have name : digestText resolver.authority.domain.name =
      0xf78f3d084b96d1f1dc0e66b69b6d60c72369d84d54eeccb95e5780bfdf665754 := by
    refine keccak256_of_eq (by conv => lhs; cbv) ?_
    decide +kernel
  have version : digestText resolver.authority.domain.version =
      0xc89efdaa54c0f20c7adf612882df0950f5a951637e0307cdcb4c672f298b8bc6 := by
    refine keccak256_of_eq (by conv => lhs; cbv) ?_
    decide +kernel
  have chain : BitVec.ofNat 256 resolver.authority.domain.chainId.toNat = 1 := by rfl
  have contract : resolver.authority.domain.contract.setWidth 256 = 0xd0 := by rfl
  rw [Domain.separator, type, name, version, chain, contract]
  refine keccak256_of_eq (by conv => lhs; cbv) ?_
  decide +kernel

theorem digestText_message : digestText Message.type =
    0xe497df720fa26c1c63ac29704f180ba43e2a01f968d4d55b3275cac5b2394075 := by
  refine keccak256_of_eq (by conv => lhs; cbv) ?_
  decide +kernel

theorem fields_message : message.fields =
    0x5b74f0a1aff17b30a83b32d321010d9527a17b304ba539bfbd2ab85c4e512f49 := by
  have callData : keccak256 message.callData =
      0x87dd48392acb9e270c2776a355b2838cc851c5d85bab75e992c7646840ecfc75 := by
    refine keccak256_of_eq (by conv => lhs; cbv) ?_
    decide +kernel
  have sender : message.sender.setWidth 256 = 0xc0 := by rfl
  have expiration : BitVec.ofNat 256 message.expiration.toNat = 4102444800 := by rfl
  rw [Message.fields, digestText_message, callData, sender, expiration]
  refine keccak256_of_eq (by conv => lhs; cbv) ?_
  decide +kernel

theorem digest_message : message.digest resolver.authority.domain =
    0xcb3c544aac00be5b9279b62bdc32de7018a2528754a69642ebbc735dd8798872 := by
  rw [Message.digest, separator_domain, fields_message]
  refine keccak256_of_eq (by conv => lhs; cbv) ?_
  decide +kernel

theorem recover_authorization :
    authorization.recover resolver.authority.domain = .ok account := by
  have recovered : signature.recover
      0xcb3c544aac00be5b9279b62bdc32de7018a2528754a69642ebbc735dd8798872 = .ok account := by
    unfold signature account
    decide +kernel
  show recoverSigner signature.toBytes (message.digest resolver.authority.domain) = .ok account
  rw [digest_message, recoverSigner, Signature.ofBytes_toBytes]
  simp only [recovered]

/-- With the authorization, the account counts as the signer of all calls of the batch. -/
theorem signerAt_nested (inner : Bytes) {now : UInt64} (h : now ≤ 4102444800) :
    resolver.authority.domain.signerAt
      ((Context.ofCall (request (some authorization))).nested inner) now = .ok account :=
  Domain.signerAt_eq_ok_iff.mpr ⟨authorization, rfl, rfl, rfl, h, recover_authorization⟩

theorem split_registration :
    splitSelector registration = .ok (Operation.register.selector, registration.drop 4) := by
  rw [registration, splitSelector_append]
  rfl

theorem split_clearing :
    splitSelector clearing = .ok (Operation.setContenthash.selector, clearing.drop 4) := by
  rw [clearing, splitSelector_append]
  rfl

theorem split_data :
    splitSelector data = .ok (Abi.Signature.multicall.selector, data.drop 4) := by
  rw [Abi.Signature.selector_multicall, data, splitSelector_append]
  rfl

/-- Both calls and the batch of them are read. -/
theorem read_calls :
    (Operation.register.signature.decodeInput (registration.drop 4) >>= Operation.register.read) =
      .ok (1, .command (.register 60)) ∧
    (Operation.setContenthash.signature.decodeInput (clearing.drop 4) >>= Operation.setContenthash.read) =
      .ok (2, .command (.setContenthash [])) ∧
    (Abi.Signature.multicall.decodeInput (data.drop 4) >>= fun args => Arguments.bytesArray args 0) =
      .ok [registration, clearing] := by
  decide +kernel

/-- The call asks for both writes. -/
theorem plan_request (auth? : Option Authorization) : ∃ args₁ args₂,
    Operation.register.read args₁ = .ok (1, .command (.register 60)) ∧
    Operation.setContenthash.read args₂ = .ok (2, .command (.setContenthash [])) ∧
    resolver.table.plan (.ofCall (request auth?)) =
      .batch (.ofCall (request auth?)) .multicall
        [.invoke ((Context.ofCall (request auth?)).nested registration) Operation.register.signature
          (resolver.handler .register) args₁,
        .invoke ((Context.ofCall (request auth?)).nested clearing) Operation.setContenthash.signature
          (resolver.handler .setContenthash) args₂] := by
  obtain ⟨args, hargs, hcalls⟩ := Except.bind_eq_ok_iff.mp read_calls.2.2
  obtain ⟨args₁, hargs₁, hread₁⟩ := Except.bind_eq_ok_iff.mp read_calls.1
  obtain ⟨args₂, hargs₂, hread₂⟩ := Except.bind_eq_ok_iff.mp read_calls.2.1
  refine ⟨args₁, args₂, hread₁, hread₂, ?_⟩
  refine Table.planAt_eq_batch_iff.mpr ⟨rfl, _, _, args, _, 7, split_data,
    resolver.get?_table_multicall, hargs, rfl, hcalls, ?_⟩
  have first : resolver.table.planAt 7 ((Context.ofCall (request auth?)).nested registration) = _ :=
    Table.planAt_eq_invoke_iff.mpr ⟨rfl, _, _, split_registration,
      resolver.get?_table_operation .register, hargs₁⟩
  have second : resolver.table.planAt 7 ((Context.ofCall (request auth?)).nested clearing) = _ :=
    Table.planAt_eq_invoke_iff.mpr ⟨rfl, _, _, split_clearing,
      resolver.get?_table_operation .setContenthash, hargs₂⟩
  rw [List.map_cons, List.map_cons, List.map_nil, first, second]

/-- With the authorization, where node 1 can be registered or not, the content hash of node 2 is cleared
if the account owns it. -/
theorem run_plan_authorized {w : World Memory} {answer : Except StoreError Unit} {s : Memory}
    {record : Record} (hnow : w.now ≤ 4102444800)
    (applied : Store.apply (.register 1 account 60) w.store = (answer, s))
    (found : s.records[(2 : Word)]? = some record)
    (owned : record.registeredOwner? = some account) :
    ∃ first, (resolver.table.plan (.ofCall (request (some authorization)))).course.run w =
      (.answered (.ofBatch [first, .ok [] none]),
        { w with store := s.put 2 { record with contenthash := none } }) := by
  obtain ⟨args₁, args₂, hread₁, hread₂, hplan⟩ := plan_request (some authorization)
  have owns : Store.owner s 2 = .ok (some account) := by
    rw [Memory.owner_eq, Memory.content, found]
    exact congrArg Except.ok owned
  have cleared : Store.apply (.setContenthash 2 []) s =
      (.ok (), s.put 2 { record with contenthash := none }) := by
    rw [Memory.apply_eq]
    simp only [Memory.refusal?, Memory.getD, Change.node, found, Option.getD_some]
    rfl
  have run₁ := run_handler_of_permits (r := resolver) (w := w) rfl hread₁ rfl
    ⟨signerAt_nested registration hnow, fun _ h => absurd h (by decide)⟩ applied
  have run₂ := run_handler_of_permits (r := resolver) (w := { w with store := s }) rfl hread₂ rfl
    ⟨signerAt_nested clearing hnow, fun _ _ => owns⟩ cleared
  have ends : outcome answer ≠ .never := by cases answer <;> exact Outcome.noConfusion
  obtain ⟨first, hfirst⟩ := Outcome.ending_answered ends Operation.register.signature
  refine ⟨first, ?_⟩
  rw [hplan, Plan.run_course_batch, Plan.run_courses_cons, Plan.run_course_invoke, run₁,
    Plan.run_courses_cons, Plan.run_course_invoke, run₂, Plan.run_courses_nil]
  simp only [hfirst]
  refine Prod.ext ?_ rfl
  exact Outcome.ending_ofSlots_eq_answered_iff.mpr ⟨[first, .ok [] none], rfl, rfl⟩

/-- A store with a record for each of the nodes, of which the account owns the second. -/
def store (owner : Address) (contenthash : Option Bytes) : Memory :=
  (Memory.empty.put 1 { node := 1, owner }).put 2 { node := 2, owner := account, contenthash }

theorem getElem?_store_one (owner : Address) (contenthash : Option Bytes) :
    (store owner contenthash).records[(1 : Word)]? = some { node := 1, owner } := by
  rw [store, Memory.getElem?_put, if_neg (by decide), Memory.getElem?_put_self]

theorem getElem?_store_two (owner : Address) (contenthash : Option Bytes) :
    (store owner contenthash).records[(2 : Word)]? =
      some { node := 2, owner := account, contenthash } :=
  Memory.getElem?_put_self ..

/-- The world in which node 1 has no owner and node 2 no content hash. -/
def vacant : World Memory := { store := store 0 none, now := 1700000000 }

/-- Where node 1 has no owner and node 2 no content hash, the call registers node 1 and changes nothing
else. -/
theorem run_plan_vacant : ∃ first,
    (resolver.table.plan (.ofCall (request (some authorization)))).course.run vacant =
      (.answered (.ofBatch [first, .ok [] none]), { vacant with
        store := vacant.store.put 1 { node := 1, owner := account, ttl := 60 } }) := by
  have applied : Store.apply (.register 1 account 60) vacant.store =
      (.ok (), vacant.store.put 1 { node := 1, owner := account, ttl := 60 }) := by
    rw [Memory.apply_eq]
    simp only [Memory.refusal?, Memory.getD, Change.node, vacant, getElem?_store_one,
      Option.getD_some]
    rfl
  have found : (vacant.store.put 1 { node := 1, owner := account, ttl := 60 }).records[(2 : Word)]? =
      some { node := 2, owner := account } := by
    rw [Memory.getElem?_put, if_neg (by decide)]
    exact getElem?_store_two 0 none
  obtain ⟨first, hrun⟩ := run_plan_authorized (w := vacant) (by decide) applied found rfl
  refine ⟨first, hrun.trans ?_⟩
  rw [Memory.put_of_getElem? found]

theorem getElem?_vacant_one : vacant.store.records[(1 : Word)]? = some { node := 1 } :=
  getElem?_store_one 0 none

/-- The contents of node 1 change. -/
theorem content_one_changed :
    ((resolver.gateway.handle (request (some authorization))).run vacant).2.store.content 1 ≠
      vacant.store.content 1 := by
  obtain ⟨response, answer, w', dispatched, -, handled⟩ :=
    resolver.run_handle (request (some authorization)) vacant
  obtain ⟨first, hrun⟩ := run_plan_vacant
  rw [hrun] at dispatched
  cases dispatched
  rw [handled, Integrity.content_settle, Memory.content, Memory.content, Memory.getElem?_put_self,
    getElem?_vacant_one]
  intro h
  exact absurd (congrArg (Option.map Record.ttl) h) (by decide)

end TwoWrites

/-- Registering node 1 is such a change. -/
theorem authorized_registration :
    ((TwoWrites.resolver.gateway.handle (TwoWrites.request (some TwoWrites.authorization))).run
        TwoWrites.vacant).2.store.content 1 ≠ TwoWrites.vacant.store.content 1 ∧
      ∃ auth signer, (TwoWrites.request (some TwoWrites.authorization)).authorization = some auth ∧
        auth.message.callData = (TwoWrites.request (some TwoWrites.authorization)).data ∧
        auth.message.sender = (TwoWrites.request (some TwoWrites.authorization)).recipient ∧
        TwoWrites.vacant.now ≤ auth.message.expiration ∧
        auth.recover TwoWrites.resolver.authority.domain = .ok signer ∧
        (Store.owner TwoWrites.vacant.store 1 = .ok none ∨
          Store.owner TwoWrites.vacant.store 1 = .ok (some signer)) :=
  ⟨TwoWrites.content_one_changed, authorized_of_content_changed TwoWrites.resolver rfl
    (TwoWrites.request (some TwoWrites.authorization)) TwoWrites.vacant 1
    TwoWrites.content_one_changed⟩

end Resolver

end OffchainNames
