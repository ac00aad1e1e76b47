import OffchainNames.Proofs.Resolver.Direct
import OffchainNames.Proofs.Store.Texts

/-!
# Reads return the last write

A store that calls reach from an empty one always holds what a store in memory could, in either backend
(`Resolver.Reachable.faithful`), so that every read is answered. A direct write changes the answers about
its own node only: to the queries that the write is about (`Operation.Leaves`), and a registration to the
time that all answers carry (`Operation.Updates`). What a query finds in a record after a command is
computed once, for all commands and queries (`Query.value_effect`).
-/

namespace OffchainNames

/-- What a command leaves for a query about its node to find, if it sets what the query asks for. -/
def Command.leaves? : Command → Query → Option Abi.Value
  | setText key value, .text asked => if key = asked then some (.string value) else none
  | setAddress coin value, .address asked => if coin = asked then some (.bytes value) else none
  | setAddress coin value, .account =>
    if coin = etherCoin then
      some (.address (if value.length = 20 then Bytes.toBits 160 value else 0))
    else none
  | setContenthash value, .contenthash => some (.bytes value)
  | _, _ => none

/-- The time that a command sets. -/
def Command.seconds? : Command → Option UInt64
  | register ttl => some ttl
  | _ => none

theorem Command.seconds?_of_not_registers {command : Command} (h : command.registers = false) :
    command.seconds? = none := by
  cases command with
  | register => cases h
  | setText | setAddress | setContenthash | transfer => rfl

theorem Command.ttl_effect (command : Command) (node : Word) (signer : Address) (record : Record) :
    ((command.change node signer).effect record).ttl = command.seconds?.getD record.ttl := by
  cases command with
  | register | transfer | setContenthash => rfl
  | setText key value => exact record.ttl_putText key value
  | setAddress coin raw => exact record.ttl_putAddress coin raw

namespace Query

variable (query : Query) (command : Command) (node : Word) (signer : Address) (record : Record)

/-- A query finds what a command leaves for it, or what it found before. -/
theorem value_effect : query.value (some ((command.change node signer).effect record)) =
    (command.leaves? query).getD (query.value (some record)) := by
  cases command with
  | register | transfer => cases query <;> rfl
  | setText key value =>
    cases query with
    | text asked =>
      simp only [Query.value, Command.change, Change.effect, Option.bind_some,
        Record.getElem?_putText, Command.leaves?]
      -- An empty value clears the entry, and where there is none the value is read as empty.
      by_cases same : key = asked
      · by_cases cleared : value = "" <;> simp [same, cleared]
      · simp [same]
    | account | address | contenthash =>
      simp [Query.value, Command.change, Change.effect, Command.leaves?]
  | setAddress coin raw =>
    cases query with
    | address asked =>
      simp only [Query.value, Command.change, Change.effect, Option.bind_some,
        Record.getElem?_putAddress, Command.leaves?]
      by_cases same : coin = asked
      · by_cases cleared : raw = [] <;> simp [same, cleared]
      · simp [same]
    | account =>
      simp only [Query.value, Command.change, Change.effect, Option.bind_some,
        Record.getElem?_putAddress, Command.leaves?]
      by_cases same : coin = etherCoin
      · by_cases cleared : raw = [] <;> simp [same, cleared]
      · simp [same]
    | text | contenthash =>
      simp [Query.value, Command.change, Change.effect, Command.leaves?]
  | setContenthash raw =>
    cases query with
    | contenthash =>
      simp only [Query.value, Command.change, Change.effect, Option.bind_some,
        Record.putContenthash, Command.leaves?]
      by_cases cleared : raw = [] <;> simp [cleared]
    | text | account | address => rfl

/-- Where there is no record, a query is answered as from the empty one. -/
theorem response_getD (m : Memory) :
    query.response (some (m.getD node)) = query.response m.records[node]? := by
  unfold Memory.getD
  cases m.records[node]? with
  | some record => rfl
  | none => cases query <;> rfl

end Query

namespace Operation

/-- What a direct call of a function that writes leaves for a query about its node to find. -/
inductive Leaves : Operation → Arguments → Query → Abi.Value → Prop where
  /-- A text that is set is the text under its key. -/
  | text (node : Word) (key value : String) :
    Leaves .setText [.fixedBytes node 32, .string key, .string value] (.text key) (.string value)
  /-- An address that is set is the address for its coin type. -/
  | address (node coin : Word) (raw : Bytes) :
    Leaves .setAddrCoin [.fixedBytes node 32, .uint coin 256, .bytes raw] (.address coin)
      (.bytes raw)
  /-- The address for the coin type of Ether is an account if it has the length of one. -/
  | etherAccount (node : Word) (raw : Bytes) :
    Leaves .setAddrCoin [.fixedBytes node 32, .uint 60 256, .bytes raw] .account
      (.address (if raw.length = 20 then Bytes.toBits 160 raw else 0))
  /-- An account that is set is the account. -/
  | account (node : Word) (account : Address) :
    Leaves .setAddr [.fixedBytes node 32, .address account] .account (.address account)
  /-- Its bytes are the address for the coin type of Ether, unless it is zero. -/
  | accountBytes (node : Word) (account : Address) :
    Leaves .setAddr [.fixedBytes node 32, .address account] (.address 60)
      (.bytes (if account = 0 then [] else Bytes.ofBits account))
  /-- A content hash that is set is the content hash. -/
  | contenthash (node : Word) (raw : Bytes) :
    Leaves .setContenthash [.fixedBytes node 32, .bytes raw] .contenthash (.bytes raw)

theorem toBits_accountBytes (account : Address) :
    (if (accountBytes account).length = 20 then Bytes.toBits 160 (accountBytes account) else 0) =
      account := by
  unfold accountBytes
  by_cases zero : account = 0
  · rw [if_pos zero, zero]
    rfl
  · rw [if_neg zero, if_pos (Bytes.length_ofBits account), Bytes.toBits_ofBits (by decide)]

theorem command_of_register {node named ttl : Word} {command : Command}
    (requested : register.read [.fixedBytes node 32, .uint ttl 32] =
      .ok (named, .command command)) :
    ∃ seconds : UInt64, seconds.toNat = ttl.toNat ∧ command = .register seconds := by
  obtain ⟨seconds, hseconds, h⟩ := Except.bind_eq_ok_iff.mp (word_of_read requested).2
  cases h
  refine ⟨seconds, ?_, rfl⟩
  have read : Arguments.uint [.fixedBytes node 32, .uint ttl 32] 1 = .ok ttl := rfl
  simp only [Arguments.uint64, read] at hseconds
  split at hseconds
  · rename_i fits
    cases hseconds
    exact UInt64.toNat_ofNat_of_lt' fits
  · cases hseconds

/-- What a call leaves is what its command does. -/
theorem Takes.leaves_iff {op : Operation} {args : Arguments} {node : Word} {command : Command}
    {query : Query} {value : Abi.Value} (takes : op.Takes args)
    (requested : op.read args = .ok (node, .command command)) :
    op.Leaves args query value ↔ command.leaves? query = some value := by
  constructor
  · intro leaves
    cases leaves with
    | text node key value =>
      cases requested
      exact if_pos rfl
    | address node coin raw =>
      cases requested
      exact if_pos rfl
    | etherAccount node raw =>
      cases requested
      rfl
    | account node account =>
      cases requested
      rw [Command.leaves?, if_pos rfl, toBits_accountBytes]
    | accountBytes node account =>
      cases requested
      rfl
    | contenthash node raw =>
      cases requested
      rfl
  · intro left
    cases takes with
    | setText node key value =>
      cases requested
      cases query with
      | text asked =>
        obtain ⟨rfl, heq⟩ := Option.ite_none_right_eq_some.mp left
        cases heq
        exact .text ..
      | account | address | contenthash => cases left
    | setAddr node account =>
      cases requested
      cases query with
      | account =>
        rw [Command.leaves?, if_pos rfl, toBits_accountBytes] at left
        cases left
        exact .account ..
      | address asked =>
        obtain ⟨rfl, heq⟩ := Option.ite_none_right_eq_some.mp left
        cases heq
        exact .accountBytes ..
      | text | contenthash => cases left
    | setAddrCoin node coin raw =>
      cases requested
      cases query with
      | account =>
        obtain ⟨rfl, heq⟩ := Option.ite_none_right_eq_some.mp left
        cases heq
        exact .etherAccount ..
      | address asked =>
        obtain ⟨rfl, heq⟩ := Option.ite_none_right_eq_some.mp left
        cases heq
        exact .address ..
      | text | contenthash => cases left
    | setContenthash node raw =>
      cases requested
      cases query with
      | contenthash =>
        cases left
        exact .contenthash ..
      | text | account | address => cases left
    | register node ttl =>
      obtain ⟨seconds, -, rfl⟩ := command_of_register requested
      cases query <;> cases left
    | transfer node owner =>
      cases requested
      cases query <;> cases left
    | text | addr | addrCoin | contenthash => cases requested

/-- How the answer to a query about the node of a direct write follows the answer before the write. -/
structure Updates (op : Operation) (args : Arguments) (query : Query) (before after : Response) :
    Prop where
  /-- The query finds what the write leaves for it. -/
  found : ∀ value, op.Leaves args query value → after.data = Abi.encode [value] ∧
    (after.data.length < UInt64.size →
      query.operation.signature.decodeOutput after.data = .ok [value])
  /-- A query for which it leaves nothing finds what it found before. -/
  kept : (∀ value, ¬ op.Leaves args query value) → after.data = before.data
  /-- A registration sets the time for all queries. -/
  registered : ∀ node ttl, op = .register → args = [.fixedBytes node 32, .uint ttl 32] →
    ∃ seconds : UInt64, seconds.toNat = ttl.toNat ∧
      after.ttl = if seconds = 0 then none else some seconds
  /-- Other writes leave the time as it is. -/
  unregistered : op ≠ .register → after.ttl = before.ttl

end Operation

/-- After a command the answer follows the one from the record before. -/
theorem Operation.Takes.updates {op : Operation} {args : Arguments} {node : Word}
    {command : Command} (takes : op.Takes args)
    (requested : op.read args = .ok (node, .command command)) (signer : Address) (record : Record)
    (query : Query) : op.Updates args query (query.response (some record))
      (query.response (some ((command.change node signer).effect record))) where
  found value leaves := by
    have left := (takes.leaves_iff requested).mp leaves
    have value_eq : query.value (some ((command.change node signer).effect record)) = value := by
      rw [query.value_effect, left, Option.getD_some]
    rw [← value_eq]
    exact ⟨rfl, query.decodeOutput_value _⟩
  kept nothing := by
    have none : command.leaves? query = none := by
      rw [Option.eq_none_iff_forall_ne_some]
      intro value left
      exact nothing value ((takes.leaves_iff requested).mpr left)
    show Abi.encode _ = Abi.encode _
    rw [query.value_effect, none, Option.getD_none]
  registered named ttl isRegister hargs := by
    subst isRegister hargs
    obtain ⟨seconds, hseconds, rfl⟩ := command_of_register requested
    refine ⟨seconds, hseconds, ?_⟩
    show ((some seconds).filter fun ttl => ttl != 0) = _
    by_cases zero : seconds = 0 <;> simp [Option.filter, zero]
  unregistered other := by
    have kept : command.seconds? = none :=
      Command.seconds?_of_not_registers (takes.not_registers other requested)
    show ((some ((command.change node signer).effect record).ttl).filter fun ttl => ttl != 0) = _
    rw [Command.ttl_effect, kept, Option.getD_none]
    rfl

namespace Resolver

variable {r : Resolver} {op : Operation} {args : Arguments} {ctx : Context}

/-- A store answers a call: with success, at any time, and without any change. -/
def Answers (r : Resolver) (s : Backend) (ctx : Context) (response : Response) : Prop :=
  response.status = 200 ∧ ∀ now replies,
    (r.table.dispatch ctx).run ⟨s, now, replies⟩ = (.answered response, ⟨s, now, replies⟩)

/-- The stores that calls reach from an empty one. -/
inductive Reachable (r : Resolver) : Backend → Prop where
  | memory : Reachable r (.memory .empty)
  | tables : Reachable r (.tables .empty)
  | dispatch {s : Backend} (reached : Reachable r s) (ctx : Context) (now : UInt64)
    (replies : List (Except RemoteError Bytes)) :
    Reachable r ((r.table.dispatch ctx).run ⟨s, now, replies⟩).2.store

/-- A function keeps a store that holds what a store in memory could. -/
theorem faithful_run_handler {w : World Backend} (faithful : w.store.Faithful) :
    ((r.handler op ctx args).run w).2.store.Faithful := by
  have effect := r.effect_handler op ctx args w
  generalize (r.handler op ctx args).run w = ran at effect
  cases effect with
  | refused status kept =>
    rw [kept]
    exact faithful
  | answered requested found => exact faithful
  | @changed node command signer _ requested unobjected permitted applied
  | @rejected node command signer _ _ requested unobjected permitted applied =>
    have reached := faithful.apply (command.change node signer)
    rwa [applied] at reached

/-- Whatever a call asks for, the functions that it is made of keep a store that holds what a store in memory
could. -/
theorem keeps_faithful (r : Resolver) (ctx : Context) (w : World Backend) :
    Plan.Keeps (fun w => w.store.Faithful) ((r.table.plan ctx).visits w) := by
  intro ctx' signature handler args inner visited faithful
  obtain ⟨-, op, payload, -, rfl, -, -⟩ :=
    invoked_of_mem_subplans (Plan.mem_subplans_of_mem_visits visited)
  exact faithful_run_handler faithful

theorem faithful_run_dispatch (r : Resolver) (ctx : Context) {w : World Backend}
    (faithful : w.store.Faithful) : ((r.table.dispatch ctx).run w).2.store.Faithful :=
  Plan.run_course_preserves (r.keeps_faithful ctx w) faithful

theorem Reachable.faithful {s : Backend} (reached : r.Reachable s) : s.Faithful := by
  induction reached with
  | memory => exact ⟨.empty, rfl⟩
  | tables => exact ⟨.empty, .empty⟩
  | dispatch reached ctx now replies ih => exact r.faithful_run_dispatch ctx ih

theorem answers_of_asks {s : Backend} {m : Memory} (mirrors : s.Mirrors m) {query : Query}
    {node : Word} (asks : query.Asks node ctx) :
    r.Answers s ctx (query.response m.records[node]?) :=
  ⟨rfl, fun _ _ => run_dispatch_of_asks asks (mirrors.domain node)⟩

/-- From a store that calls reach, every read is answered, and a direct write that is answered with
success moves the answers to queries about its own node only, as far as it sets what they ask for. -/
theorem answers_last_write (r : Resolver) {s : Backend} (reached : r.Reachable s) :
    (∀ op args ctx, op.writes = false → Operation.Calls op args ctx →
      ∃ (query : Query) (node : Word) (response : Response), query.Asks node ctx ∧
        r.Answers s ctx response) ∧
    ∀ op args ctx now replies response w', op.writes = true → Operation.Calls op args ctx →
      (r.table.dispatch ctx).run ⟨s, now, replies⟩ = (.answered response, w') →
      response.status = 200 →
      ∃ node, args.word 0 = .ok node ∧ ∀ (query : Query) asked asking, query.Asks asked asking →
        ∃ before after : Response, r.Answers s asking before ∧ r.Answers w'.store asking after ∧
          (asked ≠ node → after = before) ∧
          (asked = node → op.Updates args query before after) := by
  obtain ⟨m, mirrors⟩ := reached.faithful
  constructor
  · intro op args ctx reads calls
    obtain ⟨query, node, asks⟩ := Operation.asks_of_calls reads calls
    exact ⟨query, node, _, asks, answers_of_asks mirrors asks⟩
  · intro op args ctx now replies response w' writes calls dispatched success
    obtain ⟨node, command, signer, requested, -, applied⟩ :=
      changed_of_success writes calls dispatched success
    have mirrors' := mirrors.put_of_apply_ok applied
    rw [Command.node_change] at mirrors'
    refine ⟨node, (Operation.word_of_read requested).1, ?_⟩
    intro query asked asking asks
    refine ⟨_, _, answers_of_asks mirrors asks, answers_of_asks mirrors' asks, ?_, ?_⟩
    · intro other
      rw [Memory.getElem?_put, if_neg other]
    · rintro rfl
      -- Where the node had no record, the command started from the empty one.
      rw [Memory.getElem?_put_self, ← query.response_getD asked m]
      exact calls.takes.updates requested signer (m.getD asked) query

namespace Registration

/-- Calldata that asks for the content hash of node 1. -/
def asking : Bytes :=
  Bytes.ofBits Operation.contenthash.selector ++ Abi.encode [.fixedBytes 1 32]

/-- The context of a call with this calldata. -/
def askingContext : Context := ⟨0xc0, asking, asking, none, 0⟩

theorem asks_contenthash : Query.contenthash.Asks 1 askingContext := by
  have readable : Abi.Readable Operation.contenthash.signature.inputs [.fixedBytes 32] :=
    ⟨Operation.contenthash.resolve_inputs, rfl, by decide⟩
  have short : (Abi.encode [.fixedBytes 1 32]).length < UInt64.size := by decide
  exact ⟨_, splitSelector_append .., Abi.Signature.decodeInput_encode readable rfl short⟩

/-- A world of empty tables. -/
def vacantWorld : World Backend := { store := .tables .empty, now := 1700000000 }

/-- The world after the registration. -/
def occupiedWorld : World Backend := { vacantWorld with
  store := .tables (Tables.empty.put 1 { owner := TwoWrites.account.lower, ttl := .typed 60 }) }

theorem run_dispatch_vacant : (TwoWrites.resolver.table.dispatch (.ofCall request)).run
    vacantWorld = (.answered (.ok [] none), occupiedWorld) := by
  have fits : (60 : UInt64).toNat ≤ Tables.maxTtl := by decide
  have applied : Store.apply (.register 1 TwoWrites.account 60) vacantWorld.store =
      (.ok (), occupiedWorld.store) := by
    rw [vacantWorld, Backend.apply_tables, Tables.apply_register_empty fits]
    rfl
  exact run_dispatch (by decide) applied

end Registration

/-- The registration of a node for a minute sets the time for which its content hash, which stays empty,
may be kept. -/
theorem registration_read_back : ∃ before after,
    (TwoWrites.resolver.table.dispatch (.ofCall Registration.request)).run Registration.vacantWorld =
      (.answered (.ok [] none), Registration.occupiedWorld) ∧
    TwoWrites.resolver.Answers (.tables .empty) Registration.askingContext before ∧
    TwoWrites.resolver.Answers Registration.occupiedWorld.store Registration.askingContext after ∧
    after.data = before.data ∧ after.ttl = some 60 := by
  have dispatched := Registration.run_dispatch_vacant
  obtain ⟨args, calls, requested⟩ := Registration.calls_register
  have reached : TwoWrites.resolver.Reachable (.tables .empty) := .tables
  obtain ⟨node, named, reads⟩ := (answers_last_write TwoWrites.resolver reached).2 .register args
    (.ofCall Registration.request) 1700000000 [] _ _ rfl calls dispatched rfl
  obtain rfl : node = 1 :=
    Except.ok.inj (named.symm.trans (Operation.word_of_read requested).1)
  obtain ⟨before, after, answersBefore, answersAfter, -, updates⟩ :=
    reads .contenthash 1 Registration.askingContext Registration.asks_contenthash
  have updated := updates rfl
  refine ⟨before, after, dispatched, answersBefore, answersAfter, updated.kept ?_, ?_⟩
  · rintro value ⟨⟩
  · cases calls.takes with
    | register node ttl =>
      obtain ⟨asked, hasked, hcommand⟩ := Operation.command_of_register requested
      obtain ⟨seconds, hseconds, httl⟩ := updated.registered node ttl rfl rfl
      cases hcommand
      obtain rfl : seconds = 60 := UInt64.toNat_inj.mp (hseconds.trans hasked.symm)
      exact httl

end Resolver

end OffchainNames
