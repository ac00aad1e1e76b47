import OffchainNames.Proofs.Envelope
import OffchainNames.Proofs.Resolver.Lifecycle

/-!
# What becomes of the ttl of a registration

The ttl of a node is the one that the last registration of the node was called with, the whole word, and
zero if there was none. The declared type of the parameter has 32 bits, but nothing holds a call to them: a
word is read as it stands, and kept if it fits 64 bits. A signed read lasts as long as that ttl says, so
that the ttls of a store, and the ends of its signatures, are within 32 bits iff those of the last
registrations are (`Resolver.ttl_of_registrations`).
-/

namespace OffchainNames

variable {n : Word}

/-- Of the moments of a run, none registers a node after the one that registers it with a ttl. -/
def LastRegistered (moments : List (Moment Memory)) (n ttl : Word) : Prop :=
  ∃ earlier moment later, moments = earlier ++ moment :: later ∧ moment.Registers n ttl ∧
    ∀ m ∈ later, ∀ other, ¬ m.Registers n other

/-- The ttl of a node changes from a moment to the next one if a registration sets it. -/
structure Moment.Follows (n : Word) (before after : Moment Memory) : Prop where
  set : ∀ ttl, before.Registers n ttl → (after.record n).ttl.toNat = ttl.toNat
  kept : (∀ ttl, ¬ before.Registers n ttl) → (after.record n).ttl = (before.record n).ttl

/-- Of several elements that have a property there is a last one. -/
theorem exists_last {α : Type} {P : α → Prop} {l : List α} (some : ∃ a ∈ l, P a) :
    ∃ earlier a later, l = earlier ++ a :: later ∧ P a ∧ ∀ b ∈ later, ¬ P b := by
  induction l with
  | nil =>
    obtain ⟨a, member, -⟩ := some
    cases member
  | cons first rest ih =>
    by_cases inside : ∃ a ∈ rest, P a
    · obtain ⟨earlier, a, later, rfl, holds, none⟩ := ih inside
      exact ⟨first :: earlier, a, later, rfl, holds, none⟩
    · have none : ∀ b ∈ rest, ¬ P b := fun b member holds => inside ⟨b, member, holds⟩
      obtain ⟨a, member, holds⟩ := some
      rcases List.mem_cons.mp member with rfl | member
      · exact ⟨[], a, rest, rfl, holds, none⟩
      · exact absurd holds (none a member)

section Chain

variable {first last : Moment Memory} {moments : List (Moment Memory)}

theorem ttl_of_none (chain : (first :: (moments ++ [last])).IsChain (Moment.Follows n))
    (none : ∀ m ∈ first :: moments, ∀ ttl, ¬ m.Registers n ttl) :
    (last.record n).ttl = (first.record n).ttl := by
  induction moments generalizing first with
  | nil => exact (List.isChain_cons_cons.mp chain).1.kept (none first (List.mem_cons_self ..))
  | cons second rest ih =>
    obtain ⟨follows, chain⟩ := List.isChain_cons_cons.mp chain
    have later := ih chain fun m member => none m (List.mem_cons_of_mem _ member)
    rw [later, follows.kept (none first (List.mem_cons_self ..))]

theorem ttl_of_set {ttl : Word} (chain : (first :: (moments ++ [last])).IsChain (Moment.Follows n))
    (set : first.Registers n ttl) (none : ∀ m ∈ moments, ∀ other, ¬ m.Registers n other) :
    (last.record n).ttl.toNat = ttl.toNat := by
  cases moments with
  | nil => exact (List.isChain_cons_cons.mp chain).1.set ttl set
  | cons second rest =>
    obtain ⟨follows, chain⟩ := List.isChain_cons_cons.mp chain
    rw [ttl_of_none chain none, follows.set ttl set]

end Chain

/-- For how many seconds an answer from a record may be kept. -/
def Record.seconds (r : Record) (default : UInt64) : UInt64 := if r.ttl = 0 then default else r.ttl

theorem Query.ttl_response (query : Query) (m : Memory) (node : Word) (default : UInt64) :
    (query.response m.records[node]?).ttl.getD default = (m.getD node).seconds default := by
  show (Option.filter _ (Option.map Record.ttl _)).getD default = _
  unfold Memory.getD Record.seconds
  cases m.records[node]? with
  | none => rfl
  | some record => by_cases zero : record.ttl = 0 <;> simp [Option.filter, zero]

/-- The marking hands the ttl of a response on. -/
theorem Integrity.ttl_process {i : Integrity} {call : Call} {response handedOn : Response}
    {w w' : World Memory} (h : (i.process call response).run w = (.ok handedOn, w')) :
    handedOn.ttl = response.ttl := by
  have respond : ∀ node marker, (i.respond call response node marker).ttl = response.ttl := by
    intro node marker
    unfold Integrity.respond
    split <;> rfl
  unfold Integrity.process at h
  split at h
  · split at h
    · cases h
      rfl
    · rename_i node _
      have found : Store.domain w.store node = .ok w.store.records[node]? := rfl
      simp only [Integrity.mark, Course.run, found] at h
      split at h
      · cases h
      · cases h
        rfl
      · simp only [Course.run] at h
        split at h
        · cases h
        · cases h
          exact respond _ _
  · cases h
    rfl

namespace Resolver

variable {r : Resolver}

/-- A registration that is answered with success sets the ttl to the word that it was called with. -/
theorem ttl_of_registers {root : Context} {w w' : World Memory} {inner : Plan}
    {after : Moment Memory} {ttl : Word}
    (visited : (inner, w') ∈ (r.table.plan root).visits w) (ends : after.world = inner.enter w')
    (registers : (⟨some inner, w'⟩ : Moment Memory).Registers n ttl) :
    (after.record n).ttl.toNat = ttl.toNat := by
  obtain ⟨plan, response, starts, calls, answered, success⟩ := registers
  cases starts
  obtain ⟨levels, ctx, -, rfl⟩ := Table.of_mem_subplans_planAt (Plan.mem_subplans_of_mem_visits visited)
  rw [Table.context_planAt] at calls
  obtain ⟨payload, split, read⟩ := calls
  have plan : r.table.planAt levels ctx = .invoke ctx Operation.register.signature
      (r.handler .register) [.fixedBytes n 32, .uint ttl 32] :=
    Table.planAt_eq_invoke_iff.mpr
      ⟨rfl, _, payload, split, r.get?_table_operation .register, read⟩
  rw [plan] at answered ends
  have effect := r.effect_handler .register ctx [.fixedBytes n 32, .uint ttl 32] w'
  obtain ⟨outcome, after', ran⟩ : ∃ outcome after',
      (r.handler .register ctx [.fixedBytes n 32, .uint ttl 32]).run w' = (outcome, after') :=
    ⟨_, _, rfl⟩
  rw [Plan.enter, ran] at ends
  rw [Plan.run_course_invoke, ran] at answered
  rw [ran] at effect
  cases effect with
  | refused status kept =>
    cases answered
    exact absurd success status
  | answered requested found =>
    cases Operation.not_writes_of_request (Operation.word_of_read requested).2
  | rejected requested unobjected permitted applied =>
    cases answered
    exact absurd success (by decide : (400 : UInt16) ≠ 200)
  | changed requested unobjected permitted applied =>
    obtain ⟨seconds, same, rfl⟩ := Operation.command_of_register requested
    have named : n = _ := Except.ok.inj (Operation.word_of_read requested).1
    subst named
    obtain ⟨-, put⟩ := Memory.eq_of_apply_ok applied
    rw [Moment.record, ends, put, Memory.getD, Command.node_change, Memory.getElem?_put_self]
    exact same

/-- Through a run the ttl of a node changes only where a registration sets it. -/
theorem isChain_follows {g : Gateway} (serves : r.Serves g) (arrivals : List Arrival)
    (w : World Memory) (n : Word) : (g.moments arrivals w).IsChain (Moment.Follows n) := by
  have unmoved : ∀ {before after : Moment Memory}, r.Moves n before after →
      (∀ ttl, ¬ before.Registers n ttl) → (after.record n).ttl = (before.record n).ttl := by
    intro before after moves none
    cases moves with
    | kept owner ttl => exact ttl
    | registered unowned registers set => exact absurd registers (none _)
    | transferred transfers owns ttl => exact ttl
  refine Gateway.isChain_moments ?_ ?_ arrivals w
  · intro call w inner before after visited ends
    rw [serves.table] at visited
    exact ⟨fun ttl registers => ttl_of_registers visited ends registers,
      unmoved (moves_of_enter visited ends)⟩
  · intro call w after ends
    constructor
    · rintro ttl ⟨plan, response, starts, -⟩
      cases starts
    · refine unmoved (.of_content ?_)
      rw [ends]
      exact serves.content_handle call w n

section Run

variable {g : Gateway} {arrivals : List Arrival} {w : World Memory}

/-- After a run the ttl of a node is the one that its last registration was called with. -/
theorem ttl_of_lastRegistered {ttl : Word} (serves : r.Serves g)
    (last : LastRegistered (g.moments arrivals w) n ttl) :
    ((g.handleAll arrivals w).store.getD n).ttl.toNat = ttl.toNat := by
  obtain ⟨earlier, moment, later, split, registers, none⟩ := last
  have chain := isChain_follows serves arrivals w n
  obtain ⟨before, ends⟩ := g.moments_eq_last arrivals w
  -- The run ends at a moment at which no call starts, and so after the registration.
  rcases List.eq_nil_or_concat later with rfl | ⟨between, final, rfl⟩
  · obtain ⟨-, heq⟩ := List.append_inj' (ends.symm.trans split) rfl
    obtain ⟨rfl, -⟩ := List.cons.inj heq
    obtain ⟨plan, response, starts, -⟩ := registers
    cases starts
  · have split' : before ++ [⟨Option.none, g.handleAll arrivals w⟩] =
        (earlier ++ moment :: between) ++ [final] := by
      rw [← ends, split]
      simp
    obtain ⟨-, heq⟩ := List.append_inj' split' rfl
    obtain ⟨rfl, -⟩ := List.cons.inj heq
    rw [split, List.concat_eq_append] at chain
    refine ttl_of_set (List.isChain_append.mp chain).2.1 registers ?_
    intro m member
    exact none m (by simp [member])

/-- Without a registration in the run it is the one from before. -/
theorem ttl_of_unregistered (serves : r.Serves g)
    (none : ∀ ttl, ¬ LastRegistered (g.moments arrivals w) n ttl) :
    ((g.handleAll arrivals w).store.getD n).ttl = (w.store.getD n).ttl := by
  have unregistered : ∀ m ∈ g.moments arrivals w, ¬ ∃ ttl, m.Registers n ttl := by
    intro m member registers
    obtain ⟨earlier, moment, later, split, ⟨ttl, last⟩, later_none⟩ :=
      exists_last (P := fun m => ∃ ttl, m.Registers n ttl) ⟨m, member, registers⟩
    exact none ttl ⟨earlier, moment, later, split, last,
      fun m member other h => later_none m member ⟨other, h⟩⟩
  have chain := isChain_follows serves arrivals w n
  obtain ⟨first, rest, starts, same⟩ := g.moments_eq_first arrivals w
  obtain ⟨before, ends⟩ := g.moments_eq_last arrivals w
  cases before with
  | nil =>
    rw [ends] at starts
    obtain ⟨rfl, -⟩ := List.cons.inj starts
    show _ = (w.store.getD n).ttl
    rw [← same]
  | cons second before =>
    rw [ends] at starts unregistered chain
    obtain ⟨rfl, -⟩ := List.cons.inj starts
    have kept := ttl_of_none chain fun m member ttl registers =>
      unregistered m (List.mem_append_left _ member) ⟨ttl, registers⟩
    rw [← same]
    exact kept

end Run

/-! ## How long signed answers last -/

/-- A call that reads is answered from a record and changes nothing; the answer to any other call says
nothing about how long it may be kept. -/
theorem ttl_of_dispatched {call : Call} {w w' : World Memory} {response : Response}
    (dispatched : (r.table.plan (.ofCall call)).course.run w = (.answered response, w')) :
    (∃ query node, Query.Asks query node (.ofCall call) ∧ w' = w ∧
      response = query.response w.store.records[node]?) ∨ response.ttl = none := by
  have answered := congrArg Prod.fst dispatched
  cases plan : r.table.plan (.ofCall call) with
  | refused ctx cause =>
    rw [plan, Plan.run_course_refused] at answered
    cases answered
    exact .inr rfl
  | batch ctx signature slots =>
    obtain rfl := r.built_table.signature_of_planAt plan
    rw [plan] at answered
    obtain ⟨responses, -, rfl⟩ := Plan.run_course_batch_eq_answered_iff.mp answered
    exact .inr rfl
  | invoke ctx signature handler args =>
    have planned : r.table.planAt maxBatches (.ofCall call) = .invoke ctx signature handler args :=
      plan
    have inside : .invoke ctx signature handler args ∈
        (r.table.planAt maxBatches (.ofCall call)).subplans := by
      rw [planned]
      exact Plan.mem_subplans_self _
    obtain ⟨-, op, payload, rfl, rfl, split, read⟩ := invoked_of_mem_subplans inside
    obtain ⟨rfl, -⟩ := Table.planAt_eq_invoke_iff.mp planned
    cases writes : op.writes with
    | false =>
      obtain ⟨query, node, asks⟩ := Operation.asks_of_calls writes ⟨payload, split, read⟩
      have found : Store.domain w.store node = .ok w.store.records[node]? := rfl
      have ran := run_dispatch_of_asks (r := r) asks found
      rw [Table.dispatch, dispatched] at ran
      cases ran
      exact .inl ⟨query, node, asks, rfl, rfl⟩
    | true =>
      refine .inr ?_
      rw [plan, Plan.run_course_invoke] at answered
      have effect := r.effect_handler op (.ofCall call) args w
      generalize (r.handler op (.ofCall call) args).run w = ran at effect answered
      cases effect with
      | refused | rejected =>
        cases answered
        rfl
      | answered requested found =>
        rw [Operation.not_writes_of_request (Operation.word_of_read requested).2] at writes
        cases writes
      | changed =>
        rw [ending_reply_empty] at answered
        cases answered
        rfl

/-- A success of the gateway that signs lasts as long as the dispatched response may be kept. -/
theorem signed_of_dispatched (signer : Signer) (time : Option UInt64) {call : Call}
    {w w' : World Memory} {response : Response}
    (dispatched : (r.table.plan (.ofCall call)).course.run w = (.answered response, w'))
    (success : response.isSuccess = true) : ∃ body,
    ((r.signingGateway signer time).handle call).run w =
      (.answered (.ok body (some (addTime (time.getD w.now) (response.ttl.getD signer.defaultTtl)))),
        { w' with store := Integrity.resolver.settle call response w'.store }) := by
  obtain ⟨handedOn, kept, processed⟩ := Integrity.resolver.run_process call response w'
  have now : w'.now = w.now := by
    have clock := Course.run_now (r.table.plan (.ofCall call)).course w
    rwa [dispatched] at clock
  have marked : (Integrity.resolver.stage.process call response).run w' = (.answered (.ok handedOn),
      { w' with store := Integrity.resolver.settle call response w'.store }) := by
    rw [Integrity.run_stage, processed]
  have handled := Gateway.run_handle_of_answered (g := r.signingGateway signer time) dispatched
  rw [handled, signingGateway, Stage.run_processAll_of_ok marked,
    Stage.run_processAll_of_ok (signer.run_process time call handedOn _), Stage.run_processAll_nil,
    Signer.processAt, kept, if_pos success, Integrity.ttl_process processed, now]
  exact ⟨_, rfl⟩

/-- A call that reads is answered with a signature that lasts as long as the record of its node says. -/
theorem signed_read (signer : Signer) (time : Option UInt64) {query : Query} {node : Word}
    {call : Call} (asks : query.Asks node (.ofCall call)) (w : World Memory) :
    ∃ body expires w', ((r.signingGateway signer time).handle call).run w =
        (.answered (.ok body (some expires)), w') ∧
      expires = addTime (time.getD w.now) ((w.store.getD node).seconds signer.defaultTtl) := by
  have found : Store.domain w.store node = .ok w.store.records[node]? := rfl
  have dispatched := run_dispatch_of_asks (r := r) asks found
  obtain ⟨body, signed⟩ := signed_of_dispatched (r := r) signer time dispatched rfl
  exact ⟨body, _, _, signed, by rw [query.ttl_response w.store node]⟩

/-- Every signature lasts as long as the record of some node says, or as long as the signer does. -/
theorem signed_within (signer : Signer) (time : Option UInt64) {call : Call} {w : World Memory}
    {body : Bytes} {expires : UInt64}
    (h : (((r.signingGateway signer time).handle call).run w).1 = .answered (.ok body (some expires))) :
    ∃ seconds, expires = addTime (time.getD w.now) seconds ∧
      (seconds = signer.defaultTtl ∨ ∃ node, seconds = (w.store.getD node).seconds signer.defaultTtl) := by
  obtain ⟨response, answered⟩ := r.run_planAt_answered maxBatches (.ofCall call) w
  obtain ⟨w', dispatched⟩ : ∃ w', (r.table.plan (.ofCall call)).course.run w =
      (.answered response, w') := ⟨_, Prod.ext answered rfl⟩
  cases success : response.isSuccess with
  | true =>
    obtain ⟨body', signed⟩ := signed_of_dispatched (r := r) signer time dispatched success
    rw [signed] at h
    cases h
    refine ⟨_, rfl, ?_⟩
    rcases ttl_of_dispatched dispatched with ⟨query, node, asks, rfl, rfl⟩ | none
    · exact .inr ⟨node, query.ttl_response w'.store node signer.defaultTtl⟩
    · rw [none]
      exact .inl rfl
  | false =>
    have handled := Gateway.run_handle_of_answered (g := r.signingGateway signer time) dispatched
    rw [handled, signingGateway, run_processAll_of_not_success _ signer time call w' success] at h
    cases h
    cases success

/-- From an empty store on, the ttl of every node is the word that its last registration was called with,
or zero. So all ttls of the store are within the declared type iff those of the last registrations are, and
if they are, no signature lasts longer than that type says. -/
theorem ttl_of_registrations (r : Resolver) {g : Gateway} (serves : r.Serves g)
    (arrivals : List Arrival) {w : World Memory} (start : w.store = .empty) :
    (∀ n ttl, LastRegistered (g.moments arrivals w) n ttl →
      ((g.handleAll arrivals w).store.getD n).ttl.toNat = ttl.toNat) ∧
    (∀ n, (∀ ttl, ¬ LastRegistered (g.moments arrivals w) n ttl) →
      ((g.handleAll arrivals w).store.getD n).ttl = 0) ∧
    ((∀ (n : Word) record, (g.handleAll arrivals w).store.records[n]? = some record →
        record.ttl.toNat < UInt32.size) ↔
      ∀ n ttl, LastRegistered (g.moments arrivals w) n ttl → ttl.toNat < UInt32.size) ∧
    ∀ (signer : Signer) (time : Option UInt64) (call : Call) (later : World Memory),
      later.store = (g.handleAll arrivals w).store →
      (∀ (query : Query) node, query.Asks node (.ofCall call) →
        ∃ body expires after, ((r.signingGateway signer time).handle call).run later =
            (.answered (.ok body (some expires)), after) ∧
          expires.toNat = min ((time.getD later.now).toNat +
            ((later.store.getD node).seconds signer.defaultTtl).toNat) (UInt64.size - 1)) ∧
      ((∀ n ttl, LastRegistered (g.moments arrivals w) n ttl → ttl.toNat < UInt32.size) →
        signer.defaultTtl.toNat < UInt32.size → ∀ body expires,
          (((r.signingGateway signer time).handle call).run later).1 =
            .answered (.ok body (some expires)) →
          expires.toNat < (time.getD later.now).toNat + UInt32.size) := by
  have last : ∀ n ttl, LastRegistered (g.moments arrivals w) n ttl →
      ((g.handleAll arrivals w).store.getD n).ttl.toNat = ttl.toNat :=
    fun n ttl h => ttl_of_lastRegistered serves h
  have none : ∀ n, (∀ ttl, ¬ LastRegistered (g.moments arrivals w) n ttl) →
      ((g.handleAll arrivals w).store.getD n).ttl = 0 := by
    intro n h
    rw [ttl_of_unregistered serves h, start]
    simp [Memory.getD, Memory.empty]
  have within : (∀ n ttl, LastRegistered (g.moments arrivals w) n ttl → ttl.toNat < UInt32.size) →
      ∀ n, ((g.handleAll arrivals w).store.getD n).ttl.toNat < UInt32.size := by
    intro small n
    by_cases registered : ∃ ttl, LastRegistered (g.moments arrivals w) n ttl
    · obtain ⟨ttl, h⟩ := registered
      rw [last n ttl h]
      exact small n ttl h
    · rw [none n (not_exists.mp registered)]
      decide
  refine ⟨last, none, ⟨?_, ?_⟩, ?_⟩
  · intro small n ttl h
    rw [← last n ttl h]
    unfold Memory.getD
    cases found : (g.handleAll arrivals w).store.records[n]? with
    | none => exact (by decide : (0 : UInt64).toNat < UInt32.size)
    | some record => exact small n record found
  · intro small n record found
    have bound := within small n
    rw [Memory.getD, found] at bound
    exact bound
  · intro signer time call later same
    constructor
    · intro query node asks
      obtain ⟨body, expires, after, handled, rfl⟩ := signed_read (r := r) signer time asks later
      exact ⟨body, _, after, handled, toNat_addTime _ _⟩
    · intro small default body expires answered
      obtain ⟨seconds, rfl, stored⟩ := signed_within (r := r) signer time answered
      have bound : seconds.toNat < UInt32.size := by
        rcases stored with rfl | ⟨node, rfl⟩
        · exact default
        · unfold Record.seconds
          split
          · exact default
          · rw [same]
            exact within small node
      rw [toNat_addTime]
      omega

/-! ## A registration beyond the declared type

A registration of node 1 for one second more than 32 bits hold, signed by the account of `TwoWrites`.
-/

namespace LongRegistration

/-- The calldata. -/
def data : Bytes :=
  Bytes.ofBits Operation.register.selector ++ Abi.encode [.fixedBytes 1 32, .uint 4294967296 32]

/-- What the account signs. -/
def message : Message := ⟨data, 0xc0, 4102444800⟩

/-- The signature of the account. -/
def signature : Signature :=
  ⟨0xe7ddf462d8a3db110e907994e0345c0b97f16be3c8a9251dbfd7525462496634,
    0x352fb0ccd76bbbdb1ee3542cda766e8ce353b3f846ded1eb55fd2f8fcfd18cf3, false⟩

/-- The call. -/
def request : Call := ⟨0xc0, data, some ⟨signature.toBytes, message⟩⟩

/-- The call as it comes in. -/
def arrival : Arrival := ⟨request, 1700000000, []⟩

/-- A world without a record. -/
def world : World Memory := ⟨.empty, 1700000000, []⟩

theorem recover_signature : recoverSigner signature.toBytes
    (message.digest TwoWrites.resolver.authority.domain) = .ok TwoWrites.account := by
  have callData : keccak256 data =
      0x018fb9b98d1c2538097f09247876f0b7d51af4bda8e1ffbbed047e5200165a29 := by
    refine TwoWrites.keccak256_of_eq (by conv => lhs; cbv) ?_
    decide +kernel
  have digest : TwoWrites.digestFor
      0x018fb9b98d1c2538097f09247876f0b7d51af4bda8e1ffbbed047e5200165a29 =
        0xa6478a37129448bfa57fcde8880e9c82f7107e1564444433b73fc0e82707efb3 := by
    decide +kernel
  refine TwoWrites.recover_of_callData callData digest ?_
  unfold signature TwoWrites.account
  decide +kernel

theorem calls_register :
    Operation.register.Calls [.fixedBytes 1 32, .uint 4294967296 32] (.ofCall request) :=
  Operation.calls_of_data rfl (by decide) rfl

/-- The registration is made, and keeps the whole word. -/
theorem run_request : (TwoWrites.resolver.table.plan (.ofCall request)).course.run world =
    (.answered (.ok [] none),
      { world with store := Memory.empty.put 1 { node := 1, owner := TwoWrites.account, ttl := 4294967296 } }) := by
  have signed : TwoWrites.resolver.authority.domain.signerAt (.ofCall request) world.now =
      .ok TwoWrites.account :=
    Domain.signerAt_eq_ok_iff.mpr ⟨_, rfl, rfl, rfl,
      (by decide : (1700000000 : UInt64) ≤ 4102444800), recover_signature⟩
  have absent : Memory.empty.records[(1 : Word)]? = none := by simp [Memory.empty]
  have applied : Store.apply (.register 1 TwoWrites.account 4294967296) world.store =
      (.ok (), Memory.empty.put 1 { node := 1, owner := TwoWrites.account, ttl := 4294967296 }) := by
    rw [world, Memory.apply_eq]
    simp only [Memory.refusal?, Memory.getD, Change.node, absent, Option.getD_none]
    rfl
  have requested : Operation.register.read [.fixedBytes 1 32, .uint 4294967296 32] =
      .ok (1, .command (.register 4294967296)) := rfl
  have ran := run_handler_of_permits (r := TwoWrites.resolver) (w := world) rfl requested rfl
    ⟨signed, fun _ h => absurd h (by decide)⟩ applied
  rw [plan_of_calls calls_register, Plan.run_course_invoke, ran]
  simp only [outcome, ending_reply_empty]

/-- A call that reads the content hash of node 1. -/
def reading : Call :=
  ⟨0xc0, Bytes.ofBits Operation.contenthash.selector ++ Abi.encode [.fixedBytes 1 32], none⟩

theorem asks_reading : Query.contenthash.Asks 1 (.ofCall reading) :=
  Operation.calls_of_data rfl (by decide) rfl

/-- After the run the record of node 1 has the ttl of the registration. -/
theorem found_arrival : ∃ record, (TwoWrites.resolver.gateway.handleAll [arrival] world).store.records[
    (1 : Word)]? = some record ∧ record.ttl = 4294967296 := by
  obtain ⟨response, answer, w', dispatched, -, handled⟩ := TwoWrites.resolver.run_handle request world
  rw [run_request] at dispatched
  cases dispatched
  have start : arrival.world world = world := rfl
  rw [Gateway.handleAll, Gateway.handleAll, start, arrival, handled]
  have content := Integrity.resolver.content_settle request (.ok [] none)
    (Memory.empty.put 1 { node := 1, owner := TwoWrites.account, ttl := 4294967296 }) 1
  rw [Memory.content, Memory.content, Memory.getElem?_put_self] at content
  obtain ⟨record, found, same⟩ := Option.map_eq_some_iff.mp content
  exact ⟨record, found, (Record.unmarked_eq_iff.mp same).2.2.1⟩

/-- The registration is the last one of node 1. -/
theorem lastRegistered_arrival :
    LastRegistered (TwoWrites.resolver.gateway.moments [arrival] world) 1 4294967296 := by
  have plan := plan_of_calls (r := TwoWrites.resolver) calls_register
  have ran := congrArg Prod.fst run_request
  rw [plan] at ran
  have start : arrival.world world = world := rfl
  have planned : TwoWrites.resolver.gateway.table.plan (.ofCall arrival.call) = _ := plan
  rw [Gateway.moments, Gateway.moments, start, planned, Plan.moments_invoke]
  refine ⟨[], _, _, rfl, ⟨_, _, rfl, calls_register, ran, rfl⟩, ?_⟩
  rintro m member other ⟨plan, response, begins, -⟩
  rcases List.mem_cons.mp member with rfl | member
  · cases begins
  · rw [List.mem_singleton.mp member] at begins
    cases begins

end LongRegistration

/-- The node is stored with that ttl, and a read of it is signed for that long. -/
theorem registered_long :
    TwoWrites.resolver.Serves TwoWrites.resolver.gateway ∧
    LastRegistered (TwoWrites.resolver.gateway.moments [LongRegistration.arrival]
      LongRegistration.world) 1 4294967296 ∧
    ((TwoWrites.resolver.gateway.handleAll [LongRegistration.arrival]
      LongRegistration.world).store.getD 1).ttl.toNat = (4294967296 : Word).toNat := by
  have registered := ttl_of_registrations TwoWrites.resolver TwoWrites.resolver.serves_gateway
    [LongRegistration.arrival] (w := LongRegistration.world) rfl
  exact ⟨TwoWrites.resolver.serves_gateway, LongRegistration.lastRegistered_arrival,
    registered.1 1 4294967296 LongRegistration.lastRegistered_arrival⟩

/-- One call brings the empty store to a ttl that the declared type does not hold, and a read at time 0 of
a signer whose own time is a minute is signed for that long. -/
theorem ttl_beyond_type :
    (∃ record, (TwoWrites.resolver.gateway.handleAll [LongRegistration.arrival]
        LongRegistration.world).store.records[(1 : Word)]? = some record ∧
      ¬ record.ttl.toNat < UInt32.size) ∧
    DeclaredSuccess.signer.defaultTtl.toNat < UInt32.size ∧
    ∃ body expires after, ((TwoWrites.resolver.signingGateway DeclaredSuccess.signer (some 0)).handle
        LongRegistration.reading).run (TwoWrites.resolver.gateway.handleAll
          [LongRegistration.arrival] LongRegistration.world) =
        (.answered (.ok body (some expires)), after) ∧
      ¬ expires.toNat < (0 : UInt64).toNat + UInt32.size := by
  obtain ⟨record, found, ttl⟩ := LongRegistration.found_arrival
  refine ⟨⟨record, found, by rw [ttl]; decide⟩, by decide, ?_⟩
  obtain ⟨body, expires, after, handled, rfl⟩ := signed_read (r := TwoWrites.resolver)
    DeclaredSuccess.signer (some 0) LongRegistration.asks_reading
    (TwoWrites.resolver.gateway.handleAll [LongRegistration.arrival] LongRegistration.world)
  refine ⟨body, _, after, handled, ?_⟩
  have seconds : ((TwoWrites.resolver.gateway.handleAll [LongRegistration.arrival]
      LongRegistration.world).store.getD 1).seconds DeclaredSuccess.signer.defaultTtl = 4294967296 := by
    rw [Memory.getD, found, Option.getD_some, Record.seconds, ttl]
    rfl
  rw [seconds, toNat_addTime]
  decide

end Resolver

end OffchainNames
