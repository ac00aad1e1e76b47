import OffchainNames.Proofs.Abi.Types
import OffchainNames.Proofs.Arguments
import OffchainNames.Proofs.Authority
import OffchainNames.Proofs.Resolver.Interface

/-!
# What the functions of the resolver do

A function of the resolver refuses, answers from what is stored, or makes one change
(`Resolver.Effect`). A change is made only for a signer that may give the command
(`Resolver.Permits`), and about the node that the call names in its first argument
(`Operation.word_of_read`, `Operation.word_of_decodeInput`).
-/

namespace OffchainNames

namespace Operation

/-- Arguments that read start with the first word of the data. -/
theorem word_of_decodeInput {op : Operation} {payload : Bytes} {args : Arguments}
    (h : op.signature.decodeInput payload = .ok args) :
    ∃ node, Integrity.firstWord? payload = some node ∧ args.word 0 = .ok node := by
  obtain ⟨rest, inputs⟩ := op.inputs_signature
  rw [Abi.Signature.decodeInput_eq_ok_iff, inputs, Abi.readAll_cons_eq_ok_iff] at h
  obtain ⟨ty, value, c, tail, hty, hvalue, -, rfl⟩ := h
  rw [node, param, Abi.Param.resolve_bytes32] at hty
  cases hty
  obtain ⟨w, hword, rfl⟩ := Abi.decode_fixedBytes_eq_ok_iff.mp hvalue
  obtain ⟨long, rfl, -⟩ := Abi.Cursor.word_eq_ok_iff.mp hword
  exact ⟨_, if_neg (Nat.not_lt.mpr long), rfl⟩

/-- A request is about the node that the first argument names. -/
theorem word_of_read {op : Operation} {args : Arguments} {node : Word} {request : Request}
    (h : op.read args = .ok (node, request)) :
    args.word 0 = .ok node ∧ op.request args = .ok request := by
  obtain ⟨word, hword, h⟩ := Except.bind_eq_ok_iff.mp h
  obtain ⟨request', hrequest, h⟩ := Except.bind_eq_ok_iff.mp h
  cases h
  exact ⟨hword, hrequest⟩

/-- The accesses to its arguments that a function makes, in their order. -/
def accesses : Operation → List Arguments.Access
  | text => [.word 0, .string 1]
  | setText => [.word 0, .string 1, .string 2]
  | addr => [.word 0]
  | addrCoin => [.word 0, .uint 1]
  | setAddr => [.word 0, .address 1]
  | setAddrCoin => [.word 0, .uint 1, .bytes 2]
  | contenthash => [.word 0]
  | setContenthash => [.word 0, .bytes 1]
  | register => [.word 0, .uint64 1]
  | transfer => [.word 0, .address 1]

theorem error?_request (op : Operation) (args : Arguments) :
    Except.error? (op.request args) = op.accesses.tail.findSome? (·.error? args) := by
  cases op with
  | addr | contenthash => rfl
  | text => exact Arguments.error?_bind_access (.string 1) rfl fun key => rfl
  | addrCoin => exact Arguments.error?_bind_access (.uint 1) rfl fun coin => rfl
  | setAddr | transfer => exact Arguments.error?_bind_access (.address 1) rfl fun account => rfl
  | setContenthash => exact Arguments.error?_bind_access (.bytes 1) rfl fun value => rfl
  | register => exact Arguments.error?_bind_access (.uint64 1) rfl fun ttl => rfl
  | setText =>
    refine Arguments.error?_bind_access (.string 1) rfl fun key => ?_
    exact Arguments.error?_bind_access (.string 2) rfl fun value => rfl
  | setAddrCoin =>
    refine Arguments.error?_bind_access (.uint 1) rfl fun coin => ?_
    exact Arguments.error?_bind_access (.bytes 2) rfl fun value => rfl

/-- The arguments of a call read unless an access fails, and the error is that of the first one that
does. -/
theorem error?_read (op : Operation) (args : Arguments) :
    Except.error? (op.read args) = op.accesses.findSome? (·.error? args) := by
  have first : op.accesses = .word 0 :: op.accesses.tail := by cases op <;> rfl
  rw [first]
  refine Arguments.error?_bind_access (.word 0) rfl fun node => ?_
  rw [← op.error?_request args]
  cases op.request args <;> rfl

/-- A call whose arguments do not read is malformed. -/
theorem status_of_read {op : Operation} {args : Arguments} {e : Error}
    (h : op.read args = .error e) : e.status = 400 := by
  have failed := Except.error?_eq_some_iff.mpr h
  rw [error?_read] at failed
  obtain ⟨access, -, hfailed⟩ := List.exists_of_findSome?_eq_some failed
  exact (Arguments.Access.accessError access hfailed).status

/-- The functions that write are those that give commands. -/
theorem writes_of_request {op : Operation} {args : Arguments} {command : Command}
    (h : op.request args = .ok (.command command)) : op.writes = true := by
  cases op with
  | setText | setAddr | setAddrCoin | setContenthash | register | transfer => rfl
  | addr | contenthash => cases h
  | text | addrCoin =>
    obtain ⟨value, -, h⟩ := Except.bind_eq_ok_iff.mp h
    cases h

/-- The functions that do not write are those that ask queries. -/
theorem not_writes_of_request {op : Operation} {args : Arguments} {query : Query}
    (h : op.request args = .ok (.query query)) : op.writes = false := by
  cases op with
  | text | addr | addrCoin | contenthash => rfl
  | setAddr | setContenthash | register | transfer =>
    obtain ⟨value, -, h⟩ := Except.bind_eq_ok_iff.mp h
    cases h
  | setText | setAddrCoin =>
    obtain ⟨first, -, h⟩ := Except.bind_eq_ok_iff.mp h
    obtain ⟨second, -, h⟩ := Except.bind_eq_ok_iff.mp h
    cases h

end Operation

/-- Whether a command registers a node. -/
def Command.registers : Command → Bool
  | .register _ => true
  | _ => false

theorem Command.eq_register {command : Command} (h : command.registers = true) :
    ∃ ttl, command = .register ttl := by
  cases command with
  | register ttl => exact ⟨ttl, rfl⟩
  | setText | setAddress | setContenthash | transfer => cases h

@[simp] theorem Command.node_change (command : Command) (node : Word) (signer : Address) :
    (command.change node signer).node = node := by
  cases command <;> rfl

namespace Resolver

variable {σ : Type} [Store σ]

/-- A signer may give a command about a node: its authorization counts, and where owners are looked up
in the store the store has it as the owner, unless the command registers the node. -/
structure Permits (r : Resolver) (ctx : Context) (w : World σ) (node : Word) (command : Command)
    (signer : Address) : Prop where
  /-- The authorization of the call recovers to the signer. -/
  signed : r.authority.domain.signerAt ctx w.now = .ok signer
  /-- The signer owns the node. -/
  owns : r.authority.ownership = .stored → command.registers = false →
    Store.owner w.store node = .ok (some signer)

/-- Whoever gives a command about a node, except for the one that registers it, is its owner. -/
theorem permit_eq_authorize {r : Resolver} {ctx : Context} {node : Word} {command : Command}
    (h : command.registers = false) :
    r.permit ctx node command = r.authority.authorize ctx node := by
  cases command with
  | register ttl => cases h
  | setText | setAddress | setContenthash | transfer => rfl

/-- Finding out who may give a command changes nothing in the store, and whoever it is, may. -/
theorem run_permit (r : Resolver) (ctx : Context) (node : Word) (command : Command) (w : World σ) :
    ((r.permit ctx node command).run w).2.store = w.store ∧
      ∀ signer, ((r.permit ctx node command).run w).1 = .ok signer →
        r.Permits ctx w node command signer := by
  cases hregisters : command.registers with
  | true =>
    obtain ⟨ttl, rfl⟩ := Command.eq_register hregisters
    refine ⟨rfl, ?_⟩
    intro signer h
    exact ⟨h, fun _ hregisters => nomatch hregisters⟩
  | false =>
    obtain ⟨kept, authorized⟩ := r.authority.run_authorize ctx node w
    rw [permit_eq_authorize hregisters]
    refine ⟨kept, ?_⟩
    intro signer h
    obtain ⟨signed, owns⟩ := authorized signer h
    exact ⟨signed, fun hstored _ => owns hstored⟩

/-- A refusal to let somebody give a command is no success. -/
theorem status_run_permit {r : Resolver} {ctx : Context} {node : Word} {command : Command}
    {w : World σ} {e : Error} (h : ((r.permit ctx node command).run w).1 = .error e) :
    e.status ≠ 200 := by
  cases hregisters : command.registers with
  | true =>
    obtain ⟨ttl, rfl⟩ := Command.eq_register hregisters
    rw [Domain.status_signerAt h]
    decide
  | false =>
    rw [permit_eq_authorize hregisters] at h
    exact Authority.status_run_authorize h

/-- What makes a command unacceptable is no success. -/
theorem status_objection {r : Resolver} {command : Command} {e : Error}
    (h : r.objection? command = some e) : e.status = 400 := by
  unfold objection? at h
  split at h
  · split at h
    · cases h
      rfl
    · cases h
  · split at h
    · cases h
      rfl
    · cases h
  · cases h

/-- What a call of a function leads to: the outcome and the world after it. -/
inductive Effect (r : Resolver) (op : Operation) (ctx : Context) (args : Arguments) (w : World σ) :
    Outcome × World σ → Prop where
  /-- It is refused and nothing is changed in the store. -/
  | refused {cause : Error} {w' : World σ} (status : cause.status ≠ 200)
    (kept : w'.store = w.store) :
    Effect r op ctx args w (.failure cause, w')
  /-- It is answered from the record of the node and nothing is changed. -/
  | answered {node : Word} {query : Query} {record : Option Record}
    (requested : op.read args = .ok (node, .query query))
    (found : Store.domain w.store node = .ok record) :
    Effect r op ctx args w (.reply (query.reply record), w)
  /-- The change of a command is made for a signer who may give it. -/
  | changed {node : Word} {command : Command} {signer : Address} {w' : World σ}
    (requested : op.read args = .ok (node, .command command))
    (unobjected : r.objection? command = none) (permitted : r.Permits ctx w node command signer)
    (applied : Store.apply (command.change node signer) w.store = (.ok (), w'.store)) :
    Effect r op ctx args w (.reply {}, w')
  /-- The store rejects the change of a command that its signer may give. -/
  | rejected {node : Word} {command : Command} {signer : Address} {cause : StoreError}
    {w' : World σ} (requested : op.read args = .ok (node, .command command))
    (unobjected : r.objection? command = none) (permitted : r.Permits ctx w node command signer)
    (applied : Store.apply (command.change node signer) w.store = (.error cause, w'.store)) :
    Effect r op ctx args w (.failure (.store cause), w')

/-- Every call of a function has one of these effects. -/
theorem effect_handler (r : Resolver) (op : Operation) (ctx : Context) (args : Arguments)
    (w : World σ) : r.Effect op ctx args w ((r.handler op ctx args).run w) := by
  have refused : ∀ {cause : Error}, cause.status = 400 →
      r.Effect op ctx args w (.failure cause, w) := by
    intro cause h
    exact .refused (by rw [h]; decide) rfl
  unfold handler
  split
  · rename_i e hread
    exact refused (Operation.status_of_read hread)
  · rename_i node query hread
    simp only [answer, Course.run]
    cases hrecord : Store.domain w.store node with
    | error e => exact refused rfl
    | ok record => exact .answered hread hrecord
  · rename_i node command hread
    unfold execute
    cases hobjection : r.objection? command with
    | some e => exact refused (status_objection hobjection)
    | none =>
      simp only [Course.run_bind]
      obtain ⟨kept, permits⟩ := r.run_permit ctx node command w
      cases hpermit : ((r.permit ctx node command).run w).1 with
      | error e => exact .refused (status_run_permit hpermit) kept
      | ok signer =>
        have permitted := permits signer hpermit
        simp only [Course.run, World.apply, kept]
        cases happlied : (Store.apply (command.change node signer) w.store).1 with
        | ok made => exact .changed hread hobjection permitted (Prod.ext happlied rfl)
        | error cause => exact .rejected hread hobjection permitted (Prod.ext happlied rfl)

/-- How a command ends to which the store gives an answer. -/
def outcome : Except StoreError Unit → Outcome
  | .ok () => .reply {}
  | .error cause => .failure (.store cause)

/-- A command that its signer may give ends as the store answers the change. -/
theorem run_handler_of_permits {r : Resolver} {op : Operation} {ctx : Context} {args : Arguments}
    {w : World σ} {s : σ} {node : Word} {command : Command} {signer : Address}
    {answer : Except StoreError Unit} (hstored : r.authority.ownership = .stored)
    (requested : op.read args = .ok (node, .command command))
    (unobjected : r.objection? command = none) (permitted : r.Permits ctx w node command signer)
    (applied : Store.apply (command.change node signer) w.store = (answer, s)) :
    (r.handler op ctx args).run w = (outcome answer, { w with store := s }) := by
  have permit : (r.permit ctx node command).run w = (.ok signer, w) := by
    cases hregisters : command.registers with
    | true =>
      obtain ⟨ttl, rfl⟩ := Command.eq_register hregisters
      exact Prod.ext permitted.signed rfl
    | false =>
      rw [permit_eq_authorize hregisters]
      exact Authority.run_authorize_of_owner hstored permitted.signed
        (permitted.owns hstored hregisters)
  unfold handler
  simp only [requested, execute, unobjected, Course.run_bind, permit, Course.run, World.apply,
    applied]
  cases answer <;> rfl

end Resolver

end OffchainNames
