import OffchainNames.Proofs.Abi.Conforming
import OffchainNames.Proofs.Dispatch.Calldata
import OffchainNames.Proofs.Resolver.WriteSafety

/-!
# Direct calls of the resolver

A call outside of batches, and just as well one in a slot, invokes the function whose selector it starts
with (`Resolver.plan_of_calls`). Its arguments belong to the types of that function, so that every call of
a function that reads asks a query about a node (`Operation.asks_of_calls`), which is answered from the
record of the node (`Resolver.run_dispatch_of_asks`). A call of a function that writes is answered with
success only if its change is made, and then without data (`Resolver.made_of_success`).
-/

namespace OffchainNames

namespace Operation

variable {op : Operation} {args : Arguments} {ctx : Context}

/-- The calldata of a context calls a function with arguments. -/
def Calls (op : Operation) (args : Arguments) (ctx : Context) : Prop :=
  ∃ payload, splitSelector ctx.data = .ok (op.selector, payload) ∧
    op.signature.decodeInput payload = .ok args

/-- The types of the parameters of a function. -/
def types : Operation → List Abi.Ty
  | text => [.fixedBytes 32, .string]
  | setText => [.fixedBytes 32, .string, .string]
  | addr => [.fixedBytes 32]
  | addrCoin => [.fixedBytes 32, .uint 256]
  | setAddr => [.fixedBytes 32, .address]
  | setAddrCoin => [.fixedBytes 32, .uint 256, .bytes]
  | contenthash => [.fixedBytes 32]
  | setContenthash => [.fixedBytes 32, .bytes]
  | register => [.fixedBytes 32, .uint 32]
  | transfer => [.fixedBytes 32, .address]

theorem resolve_inputs (op : Operation) :
    Abi.Param.resolveAll op.signature.inputs = .ok op.types := by
  cases op <;>
    simp only [signature, node, param, Abi.Param.resolveAll, Abi.Param.resolve_bytes32,
      Abi.Param.resolve_string, Abi.Param.resolve_address, Abi.Param.resolve_bytes,
      Abi.Param.resolve_uint256, Abi.Param.resolve_uint32] <;> rfl

/-- Arguments are of the kinds that a function takes. -/
inductive Takes : Operation → Arguments → Prop where
  | text (node : Word) (key : String) : Takes .text [.fixedBytes node 32, .string key]
  | setText (node : Word) (key value : String) :
    Takes .setText [.fixedBytes node 32, .string key, .string value]
  | addr (node : Word) : Takes .addr [.fixedBytes node 32]
  | addrCoin (node coin : Word) : Takes .addrCoin [.fixedBytes node 32, .uint coin 256]
  | setAddr (node : Word) (account : Address) :
    Takes .setAddr [.fixedBytes node 32, .address account]
  | setAddrCoin (node coin : Word) (value : Bytes) :
    Takes .setAddrCoin [.fixedBytes node 32, .uint coin 256, .bytes value]
  | contenthash (node : Word) : Takes .contenthash [.fixedBytes node 32]
  | setContenthash (node : Word) (value : Bytes) :
    Takes .setContenthash [.fixedBytes node 32, .bytes value]
  | register (node ttl : Word) : Takes .register [.fixedBytes node 32, .uint ttl 32]
  | transfer (node : Word) (owner : Address) :
    Takes .transfer [.fixedBytes node 32, .address owner]

/-- Data that is decoded for a function holds the arguments that it takes. -/
theorem takes_of_decodeInput {payload : Bytes} (decoded : op.signature.decodeInput payload = .ok args) :
    op.Takes args := by
  have belong := Abi.Signature.belong_of_decodeInput op.resolve_inputs decoded
  clear decoded
  -- Each type leaves one kind of value, and the list of types the number of them.
  cases op <;>
    simp only [types, List.forall₂_cons_right_iff, List.forall₂_nil_right_iff,
      Abi.belongs_fixedBytes_iff, Abi.belongs_uint_iff, Abi.belongs_address_iff,
      Abi.belongs_bytes_iff, Abi.belongs_string_iff, existsAndEq, exists_and_left, true_and]
      at belong
  case text =>
    obtain ⟨node, key, rfl⟩ := belong
    exact .text node key
  case setText =>
    obtain ⟨node, key, value, rfl⟩ := belong
    exact .setText node key value
  case addr =>
    obtain ⟨node, rfl⟩ := belong
    exact .addr node
  case addrCoin =>
    obtain ⟨node, coin, rfl⟩ := belong
    exact .addrCoin node coin
  case setAddr =>
    obtain ⟨node, account, rfl⟩ := belong
    exact .setAddr node account
  case setAddrCoin =>
    obtain ⟨node, coin, value, rfl⟩ := belong
    exact .setAddrCoin node coin value
  case contenthash =>
    obtain ⟨node, rfl⟩ := belong
    exact .contenthash node
  case setContenthash =>
    obtain ⟨node, value, rfl⟩ := belong
    exact .setContenthash node value
  case register =>
    obtain ⟨node, ttl, rfl⟩ := belong
    exact .register node ttl
  case transfer =>
    obtain ⟨node, owner, rfl⟩ := belong
    exact .transfer node owner

/-- A call has the arguments that its function takes. -/
theorem Calls.takes (calls : op.Calls args ctx) : op.Takes args := by
  obtain ⟨payload, -, decoded⟩ := calls
  exact takes_of_decodeInput decoded

/-- The node of a call is the first word of its arguments. -/
theorem Calls.firstWord?_eq {payload : Bytes} {node : Word} (calls : op.Calls args ctx)
    (split : splitSelector ctx.data = .ok (op.selector, payload)) (word : args.word 0 = .ok node) :
    Integrity.firstWord? payload = some node := by
  obtain ⟨payload', split', read⟩ := calls
  obtain rfl : payload' = payload := (Prod.mk.inj (Except.ok.inj (split'.symm.trans split))).2
  obtain ⟨named, first, word'⟩ := word_of_decodeInput read
  rw [first, Except.ok.inj (word'.symm.trans word)]

/-- Nothing but a registration registers a node. -/
theorem Takes.not_registers {node : Word} {command : Command} (takes : op.Takes args)
    (other : op ≠ .register) (requested : op.read args = .ok (node, .command command)) :
    command.registers = false := by
  cases takes with
  | register => exact absurd rfl other
  | setText | setAddr | setAddrCoin | setContenthash | transfer =>
    cases requested
    rfl
  | text | addr | addrCoin | contenthash => cases requested

end Operation

namespace Query

/-- The function that answers a query. -/
def operation : Query → Operation
  | text _ => .text
  | account => .addr
  | address _ => .addrCoin
  | contenthash => .contenthash

/-- The arguments with which a query about a node is asked. -/
def arguments (node : Word) : Query → Arguments
  | text key => [.fixedBytes node 32, .string key]
  | account => [.fixedBytes node 32]
  | address coin => [.fixedBytes node 32, .uint coin 256]
  | contenthash => [.fixedBytes node 32]

/-- The calldata of a context asks a query about a node. -/
def Asks (query : Query) (node : Word) (ctx : Context) : Prop :=
  query.operation.Calls (query.arguments node) ctx

theorem read_arguments (query : Query) (node : Word) :
    query.operation.read (query.arguments node) = .ok (node, .query query) := by
  cases query <;> rfl

/-- The type of the value that a query gives. -/
def type : Query → Abi.Ty
  | text _ => .string
  | account => .address
  | address _ => .bytes
  | contenthash => .bytes

theorem readable_outputs (query : Query) :
    Abi.Readable query.operation.signature.outputs [query.type] where
  resolved := by
    cases query <;>
      simp only [operation, Operation.signature, Operation.param, Abi.Param.resolveAll,
        Abi.Param.resolve_string, Abi.Param.resolve_address, Abi.Param.resolve_bytes] <;> rfl
  solid := by cases query <;> rfl
  frames := by cases query <;> exact Nat.le_of_ble_eq_true rfl

theorem admits_value (query : Query) (record : Option Record) :
    Abi.Ty.admitsAll [query.type] [query.value record] = true := by
  cases query with
  | text | address | contenthash => rfl
  | account =>
    simp only [value]
    split <;> rfl

/-- The answer to a query from a record. -/
def response (query : Query) (record : Option Record) : Response :=
  .ok (Abi.encode [query.value record]) (query.reply record).ttl

/-- The value that a query gives is encoded as the result of the function that answers it. -/
theorem pack_value (query : Query) (record : Option Record) :
    query.operation.signature.pack [query.value record] = .ok (Abi.encode [query.value record]) :=
  Abi.Signature.pack_of_admitsAll query.readable_outputs.resolved (query.admits_value record)

/-- A reply to a query ends as the answer with its value. -/
theorem ending_reply (query : Query) (record : Option Record) :
    (Outcome.reply (query.reply record)).ending query.operation.signature =
      .answered (query.response record) := by
  simp only [Outcome.ending, reply, query.pack_value, response]

/-- The value that a query gives is read back from the data that it is answered with. -/
theorem decodeOutput_value (query : Query) (record : Option Record)
    (short : (Abi.encode [query.value record]).length < UInt64.size) :
    query.operation.signature.decodeOutput (Abi.encode [query.value record]) =
      .ok [query.value record] :=
  Abi.Signature.decodeOutput_encode query.readable_outputs (query.admits_value record) short

end Query

/-- Only the function that answers a query asks it. -/
theorem Operation.Takes.eq_operation {op : Operation} {args : Arguments} {node : Word} {query : Query}
    (takes : op.Takes args) (requested : op.read args = .ok (node, .query query)) :
    op = query.operation := by
  have reads := not_writes_of_request (word_of_read requested).2
  cases takes with
  | text | addr | addrCoin | contenthash =>
    cases requested
    rfl
  | setText | setAddr | setAddrCoin | setContenthash | register | transfer => cases reads

/-- A call of a function that reads asks a query. -/
theorem Operation.asks_of_calls {op : Operation} {args : Arguments} {ctx : Context}
    (reads : op.writes = false) (calls : op.Calls args ctx) :
    ∃ (query : Query) (node : Word), query.Asks node ctx := by
  cases calls.takes with
  | text node key => exact ⟨.text key, node, calls⟩
  | addr node => exact ⟨.account, node, calls⟩
  | addrCoin node coin => exact ⟨.address coin, node, calls⟩
  | contenthash node => exact ⟨.contenthash, node, calls⟩
  | setText | setAddr | setAddrCoin | setContenthash | register | transfer => cases reads

namespace Resolver

variable {r : Resolver} {op : Operation} {ctx : Context} {args : Arguments}

/-- A direct call invokes its function. -/
theorem plan_of_calls (calls : op.Calls args ctx) :
    r.table.plan ctx = .invoke ctx op.signature (r.handler op) args := by
  obtain ⟨payload, split, read⟩ := calls
  exact Table.planAt_eq_invoke_iff.mpr ⟨rfl, _, payload, split, r.get?_table_operation op, read⟩

section Run

variable {σ : Type} [Store σ] {w w' : World σ} {response : Response}

/-- A call of a function that is answered with success has arguments that read. -/
theorem calls_of_success {payload : Bytes} (split : splitSelector ctx.data = .ok (op.selector, payload))
    (answered : ((r.table.dispatch ctx).run w).1 = .answered response)
    (success : response.status = 200) : ∃ args, op.Calls args ctx := by
  cases read : op.signature.decodeInput payload with
  | ok args => exact ⟨args, payload, split, read⟩
  | error e =>
    have refused := Table.planAt_of_decodeInput_error split (r.get?_table_operation op) read
    rw [Table.dispatch, Table.plan, refused, Plan.run_course_refused] at answered
    cases answered
    exact absurd success (Table.status_of_planAt_refused (refused 0))

/-- A direct call of a function that writes is answered with success only if its change is made, for a
signer who may make it, and then without data. -/
theorem made_of_success (writes : op.writes = true) (calls : op.Calls args ctx)
    (dispatched : (r.table.dispatch ctx).run w = (.answered response, w'))
    (success : response.status = 200) :
    ∃ node command signer, op.read args = .ok (node, .command command) ∧
      r.Permits ctx w node command signer ∧
      Store.apply (command.change node signer) w.store = (.ok (), w'.store) ∧
      response = .ok [] none := by
  rw [Table.dispatch, plan_of_calls calls, Plan.run_course_invoke] at dispatched
  have effect := r.effect_handler op ctx args w
  generalize (r.handler op ctx args).run w = ran at effect dispatched
  cases effect with
  | refused status kept =>
    cases dispatched
    exact absurd success status
  | answered requested found =>
    -- Only functions that read are answered from what is stored.
    rw [Operation.not_writes_of_request (Operation.word_of_read requested).2] at writes
    cases writes
  | changed requested unobjected permitted applied =>
    obtain ⟨ending, rfl⟩ := Prod.mk.inj dispatched
    rw [ending_reply_empty] at ending
    cases ending
    exact ⟨_, _, _, requested, permitted, applied, rfl⟩
  | rejected requested unobjected permitted applied =>
    cases dispatched
    exact absurd success (by decide : (400 : UInt16) ≠ 200)

theorem changed_of_success (writes : op.writes = true) (calls : op.Calls args ctx)
    (dispatched : (r.table.dispatch ctx).run w = (.answered response, w'))
    (success : response.status = 200) :
    ∃ node command signer, op.read args = .ok (node, .command command) ∧
      r.Permits ctx w node command signer ∧
      Store.apply (command.change node signer) w.store = (.ok (), w'.store) := by
  obtain ⟨node, command, signer, requested, permitted, applied, -⟩ :=
    made_of_success writes calls dispatched success
  exact ⟨node, command, signer, requested, permitted, applied⟩

/-- A query is answered from the record of its node. -/
theorem run_dispatch_of_asks {query : Query} {node : Word} {record : Option Record}
    (asks : query.Asks node ctx) (found : Store.domain w.store node = .ok record) :
    (r.table.dispatch ctx).run w = (.answered (query.response record), w) := by
  rw [Table.dispatch, plan_of_calls asks, Plan.run_course_invoke, handler, query.read_arguments]
  simp only [answer, Course.run, found, query.ending_reply]

end Run

/-! ## A signed registration

The registration of `TwoWrites` as a call of its own, signed by the same account.
-/

namespace Registration

/-- What the account signs. -/
def message : Message := ⟨TwoWrites.registration, 0xc0, 4102444800⟩

/-- The signature of the account. -/
def signature : Signature :=
  ⟨0x379fdbc0ae7285ac27868b0a86edfe43ab1ce4127e72d7c285b4391743e46b8f,
    0x41ba7a3a64c188002d86488e3fc714bff866f368b2cc5f292b50490c645a2ade, true⟩

/-- The call. -/
def request : Call := ⟨0xc0, TwoWrites.registration, some ⟨signature.toBytes, message⟩⟩

theorem digest_message : message.digest TwoWrites.resolver.authority.domain =
    0xf99b9871eb8b1f3758d23fe5c8aa90cdd1c1bc7fe139c8bcb4cbcae946a9701d := by
  have callData : keccak256 message.callData =
      0xd13e396776daba522e88905e4126bcc841fc9ee43fdff3590ae7099c238da484 := by
    refine TwoWrites.keccak256_of_eq (by conv => lhs; cbv) ?_
    decide +kernel
  have sender : message.sender.setWidth 256 = 0xc0 := by rfl
  have expiration : BitVec.ofNat 256 message.expiration.toNat = 4102444800 := by rfl
  have fields : message.fields =
      0xa8cf7460225d5dbe7b593f47ce272cde651e66524d8e88e27c534744cab6c7b9 := by
    rw [Message.fields, TwoWrites.digestText_message, callData, sender, expiration]
    refine TwoWrites.keccak256_of_eq (by conv => lhs; cbv) ?_
    decide +kernel
  rw [Message.digest, TwoWrites.separator_domain, fields]
  refine TwoWrites.keccak256_of_eq (by conv => lhs; cbv) ?_
  decide +kernel

theorem recover_signature : recoverSigner signature.toBytes
    (message.digest TwoWrites.resolver.authority.domain) = .ok TwoWrites.account := by
  have recovered : signature.recover
      0xf99b9871eb8b1f3758d23fe5c8aa90cdd1c1bc7fe139c8bcb4cbcae946a9701d =
        .ok TwoWrites.account := by
    unfold signature TwoWrites.account
    decide +kernel
  rw [digest_message, recoverSigner, Signature.ofBytes_toBytes]
  simp only [recovered]

theorem calls_register : ∃ args, Operation.register.Calls args (.ofCall request) ∧
    Operation.register.read args = .ok (1, .command (.register 60)) := by
  obtain ⟨args, hargs, hread⟩ := Except.bind_eq_ok_iff.mp TwoWrites.read_calls.1
  exact ⟨args, ⟨_, TwoWrites.split_registration, hargs⟩, hread⟩

/-- The call registers node 1 for a minute, where the store lets it. -/
theorem run_dispatch {σ : Type} [Store σ] {w : World σ} {s : σ} (hnow : w.now ≤ 4102444800)
    (applied : Store.apply (.register 1 TwoWrites.account 60) w.store = (.ok (), s)) :
    (TwoWrites.resolver.table.dispatch (.ofCall request)).run w =
      (.answered (.ok [] none), { w with store := s }) := by
  obtain ⟨args, calls, read⟩ := calls_register
  have signed : TwoWrites.resolver.authority.domain.signerAt (.ofCall request) w.now =
      .ok TwoWrites.account :=
    Domain.signerAt_eq_ok_iff.mpr ⟨_, rfl, rfl, rfl, hnow, recover_signature⟩
  have ran := run_handler_of_permits (r := TwoWrites.resolver) (w := w) rfl read rfl
    ⟨signed, fun _ h => absurd h (by decide)⟩ applied
  rw [Table.dispatch, plan_of_calls calls, Plan.run_course_invoke, ran]
  simp only [outcome, ending_reply_empty]

end Registration

end Resolver

end OffchainNames
