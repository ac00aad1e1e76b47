import OffchainNames.Proofs.Dispatch.Fold
import OffchainNames.Proofs.Dispatch.Moments
import OffchainNames.Proofs.Resolver.Commit
import OffchainNames.Proofs.Resolver.ReadBack
import OffchainNames.Proofs.Store.Owners

/-!
# From one owner to the next

Between two moments of a run that follow each other, what is stored for a node about its owner and its ttl
stays, or a registration is made for a node that nobody owns, or a transfer for one that somebody does
(`Resolver.Moves`). The stages move nothing. So a node that has an owner keeps one through the rest of the
run, and its ttl, and the owner is another one only after a transfer that the owner of that moment signed
(`Resolver.owned_for_good`).
-/

namespace OffchainNames

/-- The owner that a command of a signer sets. -/
def Command.owner? (signer : Address) : Command → Option Address
  | register _ => some signer
  | transfer owner => some owner
  | _ => none

theorem Command.owner_effect (command : Command) (node : Word) (signer : Address) (record : Record) :
    ((command.change node signer).effect record).owner =
      (command.owner? signer).getD record.owner := by
  cases command with
  | register | transfer | setContenthash => rfl
  | setText key value => exact record.owner_putText key value
  | setAddress coin raw => exact record.owner_putAddress coin raw

namespace Memory

variable {m m' : Memory} {n : Word}

theorem unmarked_getD (m : Memory) (n : Word) :
    (m.getD n).unmarked = (m.content n).getD { node := n } := by
  unfold getD content
  cases m.records[n]? <;> rfl

/-- Where the contents are the same, the owner and the ttl are. -/
theorem getD_of_content (same : m'.content n = m.content n) :
    (m'.getD n).owner = (m.getD n).owner ∧ (m'.getD n).ttl = (m.getD n).ttl := by
  have unmarked : (m'.getD n).unmarked = (m.getD n).unmarked := by
    rw [unmarked_getD, unmarked_getD, same]
  obtain ⟨-, owner, ttl, -⟩ := Record.unmarked_eq_iff.mp unmarked
  exact ⟨owner, ttl⟩

theorem owner_getD {signer : Address} (owns : Store.owner m n = .ok (some signer)) :
    (m.getD n).owner = signer := by
  obtain ⟨record, found, owner, -⟩ := owner_eq_some_iff.mp owns
  rw [getD, found]
  exact owner

theorem owner_getD_of_register {owner : Address} {ttl : UInt64}
    (unrefused : m.refusal? (.register n owner ttl) = none) : (m.getD n).owner = 0 := by
  by_cases registered : (m.getD n).isRegistered
  · simp [refusal?, registered] at unrefused
  · simpa [Record.isRegistered] using registered

end Memory

/-! ## The stages -/

/-- A stage is one of those that mark records or sign responses. -/
inductive Stage.Standard : Stage → Prop where
  | integrity (i : Integrity) : Standard i.stage
  | signing (signer : Signer) (time : Option UInt64) : Standard (signer.stage time)

theorem Stage.Standard.content {stage : Stage} (standard : stage.Standard) (call : Call)
    (response : Response) (w : World Memory) (n : Word) :
    ((stage.process call response).run w).2.store.content n = w.store.content n := by
  cases standard with
  | integrity i =>
    obtain ⟨handedOn, -, processed⟩ := i.run_process call response w
    rw [Integrity.run_stage, processed]
    exact i.content_settle call response w.store n
  | signing signer time => cases time <;> rfl

/-- A gateway has the functions of a resolver, and its stages mark records or sign responses. -/
structure Resolver.Serves (r : Resolver) (g : Gateway) : Prop where
  table : g.table = r.table
  stages : ∀ stage ∈ g.stages, stage.Standard

namespace Resolver

theorem serves_gateway (r : Resolver) : r.Serves r.gateway where
  table := rfl
  stages stage member := by
    obtain rfl := List.mem_singleton.mp member
    exact .integrity _

/-- After the dispatch the contents stay as they are. -/
theorem Serves.content_handle {r : Resolver} {g : Gateway} (serves : r.Serves g) (call : Call)
    (w : World Memory) (n : Word) : ((g.handle call).run w).2.store.content n =
      ((g.table.plan (.ofCall call)).course.run w).2.store.content n := by
  refine Gateway.run_handle_preserves (I := fun after : World Memory => after.store.content n =
    ((g.table.plan (.ofCall call)).course.run w).2.store.content n) ?_ rfl
  intro stage member call response w' same
  rw [(serves.stages stage member).content call response w' n, same]

end Resolver

/-! ## What a step moves -/

/-- The record of a node at a moment, or the empty one. -/
def Moment.record (moment : Moment Memory) (n : Word) : Record := moment.world.store.getD n

/-- At a moment a registration of a node starts that is answered with success. -/
def Moment.Registers (moment : Moment Memory) (n ttl : Word) : Prop :=
  ∃ plan response, moment.plan = some plan ∧
    Operation.register.Calls [.fixedBytes n 32, .uint ttl 32] plan.context ∧
    (plan.course.run moment.world).1 = .answered response ∧ response.status = 200

namespace Operation

/-- A registration is asked for by the function that registers alone. -/
theorem Takes.of_register {op : Operation} {args : Arguments} {n : Word} {seconds : UInt64}
    (takes : op.Takes args) (requested : op.read args = .ok (n, .command (.register seconds))) :
    ∃ ttl : Word, op = .register ∧ args = [.fixedBytes n 32, .uint ttl 32] ∧
      seconds.toNat = ttl.toNat := by
  cases takes with
  | register node ttl =>
    obtain ⟨seconds', same, heq⟩ := command_of_register requested
    cases heq
    have named : n = node := Except.ok.inj (word_of_read requested).1.symm
    exact ⟨ttl, rfl, by rw [named], same⟩
  | setText | setAddr | setAddrCoin | setContenthash | transfer | text | addr | addrCoin
  | contenthash => cases requested

/-- A transfer is asked for by the function that transfers alone. -/
theorem Takes.of_transfer {op : Operation} {args : Arguments} {n : Word} {owner : Address}
    (takes : op.Takes args) (requested : op.read args = .ok (n, .command (.transfer owner))) :
    op = .transfer ∧ args = [.fixedBytes n 32, .address owner] := by
  cases takes with
  | transfer node owner =>
    cases requested
    exact ⟨rfl, rfl⟩
  | register node ttl =>
    obtain ⟨seconds, -, heq⟩ := command_of_register requested
    cases heq
  | setText | setAddr | setAddrCoin | setContenthash | text | addr | addrCoin | contenthash =>
    cases requested

end Operation

namespace Resolver

variable {r : Resolver} {n : Word} {before after : Moment Memory}

/-- Between two moments a node goes to an owner, in a transfer that a signer gives. -/
structure Transfers (r : Resolver) (n : Word) (signer owner : Address) (before after : Moment Memory) :
    Prop where
  /-- A transfer of the node starts, which the signer has authorized. -/
  called : ∃ plan, before.plan = some plan ∧
    Operation.transfer.Calls [.fixedBytes n 32, .address owner] plan.context ∧
    r.authority.domain.signerAt plan.context before.world.now = .ok signer
  nonzero : owner ≠ 0
  given : (after.record n).owner = owner

/-- What happens to the owner and the ttl of a node between two moments. -/
inductive Moves (r : Resolver) (n : Word) (before after : Moment Memory) : Prop where
  | kept (owner : (after.record n).owner = (before.record n).owner)
    (ttl : (after.record n).ttl = (before.record n).ttl)
  /-- The node, which nobody owns, is registered with a ttl. -/
  | registered {ttl : Word} (unowned : (before.record n).owner = 0) (registers : before.Registers n ttl)
    (set : (after.record n).ttl.toNat = ttl.toNat)
  /-- The node is transferred and the ttl stays. -/
  | transferred {signer owner : Address} (transfers : r.Transfers n signer owner before after)
    (owns : r.authority.ownership = .stored → (before.record n).owner = signer)
    (ttl : (after.record n).ttl = (before.record n).ttl)

theorem Moves.of_content (same : after.world.store.content n = before.world.store.content n) :
    r.Moves n before after :=
  .kept (Memory.getD_of_content same).1 (Memory.getD_of_content same).2

/-- A function of the resolver registers a node that nobody owns, or transfers it for its owner, or
leaves owner and ttl as they are. -/
theorem moves_of_invoke {op : Operation} {ctx : Context} {args : Arguments}
    (calls : op.Calls args ctx)
    (starts : before.plan = some (.invoke ctx op.signature (r.handler op) args))
    (ends : after.world = ((r.handler op ctx args).run before.world).2) : r.Moves n before after := by
  have effect := r.effect_handler op ctx args before.world
  obtain ⟨outcome, w', ran⟩ : ∃ outcome w', (r.handler op ctx args).run before.world = (outcome, w') :=
    ⟨_, _, rfl⟩
  rw [ran] at effect ends
  rcases effect.kept_or_changed n with same | ⟨command, signer, requested, replied, unobjected,
    permitted, unrefused, put⟩
  · refine .of_content ?_
    rw [ends, Memory.content, Memory.content, same]
  have record : after.record n = (command.change n signer).effect (before.record n) := by
    rw [Moment.record, ends, Memory.getD, put]
    rfl
  have ttl := command.ttl_effect n signer (before.record n)
  have owner := command.owner_effect n signer (before.record n)
  rw [← record] at ttl owner
  cases command with
  | register seconds =>
    obtain ⟨word, rfl, rfl, same⟩ := calls.takes.of_register requested
    have registers : before.Registers n word := by
      refine ⟨_, .ok [] none, starts, calls, ?_, rfl⟩
      rw [Plan.run_course_invoke, ran, replied, ending_reply_empty]
    refine .registered (Memory.owner_getD_of_register unrefused) registers ?_
    rw [ttl]
    exact same
  | transfer given =>
    obtain ⟨rfl, rfl⟩ := calls.takes.of_transfer requested
    have nonzero : given ≠ 0 := by
      intro zero
      simp [objection?, zero] at unobjected
    refine .transferred ⟨⟨_, starts, calls, permitted.signed⟩, nonzero, owner⟩ ?_ ttl
    intro stored
    exact Memory.owner_getD (permitted.owns stored rfl)
  | setText | setAddress | setContenthash => exact .kept owner ttl

/-- Any call that starts inside a call moves owners and ttls in these ways only. -/
theorem moves_of_enter {root : Context} {w w' : World Memory} {inner : Plan}
    (visited : (inner, w') ∈ (r.table.plan root).visits w) (ends : after.world = inner.enter w') :
    r.Moves n ⟨some inner, w'⟩ after := by
  cases inner with
  | refused ctx cause =>
    refine .of_content ?_
    rw [ends]
    rfl
  | batch ctx signature slots =>
    refine .of_content ?_
    rw [ends]
    rfl
  | invoke ctx signature handler args =>
    obtain ⟨-, op, payload, rfl, rfl, split, read⟩ :=
      invoked_of_mem_subplans (Plan.mem_subplans_of_mem_visits visited)
    exact moves_of_invoke ⟨payload, split, read⟩ rfl ends

/-- Through a run owners and ttls move in these ways only. -/
theorem isChain_moves {g : Gateway} (serves : r.Serves g) (arrivals : List Arrival)
    (w : World Memory) (n : Word) : (g.moments arrivals w).IsChain (r.Moves n) := by
  refine Gateway.isChain_moments ?_ ?_ arrivals w
  · intro call w inner before after visited ends
    rw [serves.table] at visited
    exact moves_of_enter visited ends
  · intro call w after ends
    refine .of_content ?_
    rw [ends]
    exact serves.content_handle call w n

/-- A node that has an owner has one later on, and its ttl stays. -/
def OwnedStill (n : Word) (before after : Moment Memory) : Prop :=
  (before.record n).owner ≠ 0 →
    (after.record n).owner ≠ 0 ∧ (after.record n).ttl = (before.record n).ttl

theorem Moves.ownedStill (moves : r.Moves n before after) : OwnedStill n before after := by
  intro owned
  cases moves with
  | kept owner ttl => exact ⟨owner ▸ owned, ttl⟩
  | registered unowned registers set => exact absurd unowned owned
  | transferred transfers owns ttl => exact ⟨transfers.given ▸ transfers.nonzero, ttl⟩

instance : Trans (OwnedStill n) (OwnedStill n) (OwnedStill n) where
  trans earlier later owned :=
    have ⟨still, ttl⟩ := earlier owned
    have ⟨owned', ttl'⟩ := later still
    ⟨owned', ttl'.trans ttl⟩

end Resolver

/-- Calldata that starts with the selector of a function and goes on with arguments of its types calls the
function with these arguments. -/
theorem Operation.calls_of_data {op : Operation} {args : Arguments} {ctx : Context}
    (admits : Abi.Ty.admitsAll op.types args = true) (short : (Abi.encode args).length < UInt64.size)
    (data : ctx.data = Bytes.ofBits op.selector ++ Abi.encode args) : op.Calls args ctx := by
  have readable : Abi.Readable op.signature.inputs op.types :=
    ⟨op.resolve_inputs, by cases op <;> rfl, by cases op <;> exact Nat.le_of_ble_eq_true rfl⟩
  refine ⟨Abi.encode args, ?_, Abi.Signature.decodeInput_encode readable admits short⟩
  rw [data, splitSelector_append]

namespace Resolver

namespace TwoWrites

/-- The digest that the account signs for calldata of the given digest. -/
def digestFor (callData : Word) : Word :=
  keccak256 ([0x19, 0x01] ++ concatWords
    [0xaceae3919ebdf36e45ac407086963ed6861acff114593c99b6e1467645703b64,
      keccak256 (concatWords
        [0xe497df720fa26c1c63ac29704f180ba43e2a01f968d4d55b3275cac5b2394075, callData, 0xc0,
          4102444800])])

theorem recover_of_callData {data : Bytes} {signature : Signature} {callData digest : Word}
    (hashed : keccak256 data = callData) (digested : digestFor callData = digest)
    (recovered : signature.recover digest = .ok account) :
    recoverSigner signature.toBytes
      ((Message.mk data 0xc0 4102444800).digest resolver.authority.domain) = .ok account := by
  have sender : (0xc0 : Address).setWidth 256 = (0xc0 : Word) := by rfl
  have expiration : BitVec.ofNat 256 (4102444800 : UInt64).toNat = 4102444800 := by rfl
  rw [Message.digest, separator_domain, Message.fields, digestText_message, hashed, sender,
    expiration, ← digestFor, digested, recoverSigner, Signature.ofBytes_toBytes]
  simp only [recovered]

end TwoWrites

/-! ## A node that changes hands

A batch gives node 2 away and then clears its content hash. It is signed by the account of `TwoWrites`,
which owns the node before.
-/

namespace Handover

/-- The account that gets the node. -/
def other : Address := 0x2b5ad5c4795c026514f8317c7a215e218dccd6cf

/-- The calldata that gives node 2 away. -/
def giving : Bytes :=
  Bytes.ofBits Operation.transfer.selector ++ Abi.encode [.fixedBytes 2 32, .address other]

/-- The calldata of the batch. -/
def data : Bytes :=
  Bytes.ofBits Abi.Signature.multicall.selector ++
    Abi.encode [.array ([giving, TwoWrites.clearing].map .bytes)]

/-- What the account signs. -/
def message : Message := ⟨data, 0xc0, 4102444800⟩

/-- The signature of the account. -/
def signature : Signature :=
  ⟨0x41c546faa6acc009fcaae85e47b38db009017b7b676bd3a6733f8387e27b9b67,
    0x5a7905afd14a7389a5d13cfb62eba178afce3ca3e9cc50a27187f9c0827a5f67, false⟩

/-- The call. -/
def request : Call := ⟨0xc0, data, some ⟨signature.toBytes, message⟩⟩

theorem data_eq : data = Bytes.ofBits (0xac9650d8 : Selector) ++
    Abi.encode [.array [.bytes giving, .bytes TwoWrites.clearing]] := by
  rw [data, Abi.Signature.selector_multicall]
  rfl

theorem recover_signature : recoverSigner signature.toBytes
    (message.digest TwoWrites.resolver.authority.domain) = .ok TwoWrites.account := by
  have callData : keccak256 data =
      0xc9661c28b4cd7326e1b375a8bd992d46cd32def5cd8bb3a86d2c5ca266f722f0 := by
    rw [data_eq]
    refine TwoWrites.keccak256_of_eq (by conv => lhs; cbv) ?_
    decide +kernel
  have digest : TwoWrites.digestFor
      0xc9661c28b4cd7326e1b375a8bd992d46cd32def5cd8bb3a86d2c5ca266f722f0 =
        0x31a85a49c143ef5abb8000845f4a5f9d38a4882b07019b130330315fe1e19779 := by
    decide +kernel
  refine TwoWrites.recover_of_callData callData digest ?_
  unfold signature TwoWrites.account
  decide +kernel

/-- The context of the call of the batch with the given calldata. -/
def slot (calldata : Bytes) : Context := (Context.ofCall request).nested calldata

/-- The account counts as the signer of the calls of the batch. -/
theorem signerAt_slot (calldata : Bytes) {now : UInt64} (h : now ≤ 4102444800) :
    TwoWrites.resolver.authority.domain.signerAt (slot calldata) now = .ok TwoWrites.account :=
  Domain.signerAt_eq_ok_iff.mpr ⟨_, rfl, rfl, rfl, h, recover_signature⟩

theorem calls_giving : Operation.transfer.Calls [.fixedBytes 2 32, .address other] (slot giving) :=
  Operation.calls_of_data rfl (by decide) rfl

theorem calls_clearing :
    Operation.setContenthash.Calls [.fixedBytes 2 32, .bytes []] (slot TwoWrites.clearing) :=
  Operation.calls_of_data rfl (by decide) rfl

/-- The plan of the call of the batch with the given calldata. -/
def slotPlan (op : Operation) (calldata : Bytes) (args : Arguments) : Plan :=
  .invoke (slot calldata) op.signature (TwoWrites.resolver.handler op) args

theorem plan_request : TwoWrites.resolver.table.plan (.ofCall request) =
    .batch (.ofCall request) .multicall
      [slotPlan .transfer giving [.fixedBytes 2 32, .address other],
        slotPlan .setContenthash TwoWrites.clearing [.fixedBytes 2 32, .bytes []]] := by
  have short : data.length < UInt64.size := by
    rw [data_eq]
    set_option maxRecDepth 4096 in decide
  have planned : TwoWrites.resolver.table.plan (.ofCall request) = _ :=
    Table.plan_multicall TwoWrites.resolver.get?_table_multicall
      (Abi.Signature.encodeCall_multicall _) short (by decide)
  have first : TwoWrites.resolver.table.plan (slot giving) = _ := plan_of_calls calls_giving
  have second : TwoWrites.resolver.table.plan (slot TwoWrites.clearing) = _ :=
    plan_of_calls calls_clearing
  rw [slot] at first second
  rw [planned, List.map_cons, List.map_cons, List.map_nil, first, second]
  rfl

/-- The store in which the account owns node 2. -/
def store (owner : Address) : Memory := Memory.empty.put 2 { node := 2, owner }

theorem getElem?_store (owner : Address) :
    (store owner).records[(2 : Word)]? = some { node := 2, owner } :=
  Memory.getElem?_put_self ..

/-- The call as it comes in. -/
def arrival : Arrival := ⟨request, 1700000000, []⟩

/-- The world in which an account owns node 2. -/
def world (owner : Address) : World Memory := ⟨store owner, 1700000000, []⟩

theorem apply_giving : Store.apply (.transfer 2 other) (store TwoWrites.account) =
    (.ok (), store other) := by
  have given : (store TwoWrites.account).put 2 { node := 2, owner := other } = store other := by
    refine Memory.ext_getElem? fun n => ?_
    simp only [store, Memory.getElem?_put]
    split <;> rfl
  rw [Memory.apply_eq, ← given]
  simp only [Memory.refusal?, Memory.getD, Change.node, getElem?_store, Option.getD_some]
  rfl

/-- The transfer is made where the account owns the node. -/
theorem run_giving : (TwoWrites.resolver.handler .transfer (slot giving)
    [.fixedBytes 2 32, .address other]).run (world TwoWrites.account) =
      (.reply {}, world other) := by
  have owns : Store.owner (store TwoWrites.account) 2 = .ok (some TwoWrites.account) :=
    Memory.owner_eq_some_iff.mpr ⟨_, getElem?_store TwoWrites.account, rfl, by decide⟩
  have signed := signerAt_slot giving (by decide : (1700000000 : UInt64) ≤ 4102444800)
  have requested : Operation.transfer.read [.fixedBytes 2 32, .address other] =
      .ok (2, .command (.transfer other)) := rfl
  exact run_handler_of_permits (r := TwoWrites.resolver) (w := world TwoWrites.account) rfl requested
    rfl ⟨signed, fun _ _ => owns⟩ apply_giving

/-- In the run of the call the clearing starts right after the transfer, when the other account owns the
node. -/
theorem moments_arrival : ∃ first rest,
    TwoWrites.resolver.gateway.moments [arrival] (world TwoWrites.account) = first ::
      ⟨some (slotPlan .transfer giving [.fixedBytes 2 32, .address other]), world TwoWrites.account⟩ ::
      ⟨some (slotPlan .setContenthash TwoWrites.clearing [.fixedBytes 2 32, .bytes []]),
        world other⟩ :: rest := by
  have start : arrival.world (world TwoWrites.account) = world TwoWrites.account := rfl
  have visited : (TwoWrites.resolver.gateway.table.plan (.ofCall arrival.call)).visits
      (world TwoWrites.account) =
        [(TwoWrites.resolver.table.plan (.ofCall request), world TwoWrites.account),
          (slotPlan .transfer giving [.fixedBytes 2 32, .address other], world TwoWrites.account),
          (slotPlan .setContenthash TwoWrites.clearing [.fixedBytes 2 32, .bytes []],
            world other)] := by
    show (TwoWrites.resolver.table.plan (.ofCall request)).visits _ = _
    rw [plan_request]
    simp only [Plan.visits, Plan.visitsOf, slotPlan, Plan.run_course_invoke, run_giving]
    rfl
  rw [Gateway.moments, start, Plan.moments, visited]
  exact ⟨_, _, rfl⟩

theorem owner_record (plan : Option Plan) (owner : Address) :
    (Moment.record ⟨plan, world owner⟩ 2).owner = owner := by
  show ((store owner).getD 2).owner = owner
  rw [Memory.getD, getElem?_store]
  rfl

end Handover

end Resolver

end OffchainNames
