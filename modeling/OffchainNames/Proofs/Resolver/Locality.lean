import OffchainNames.Proofs.Resolver.Gateway

/-!
# A call is about the node that it names

A call that is no batch looks up and changes no other record than that of the node that its arguments start
with. What it finds out beyond that is who signed it. So the same calldata, dispatched for the same signer in
two stores that hold the same record for that node, is answered alike and leaves the two records the same
(`Course.Alike.run`), and every other record stays (`Course.Alike.kept`). The two courses are compared
operation by operation (`Course.Alike`), since neither the contexts nor the times need to be the same.
-/

namespace OffchainNames

/-- The node that the arguments of calldata start with, if they are long enough to name one. -/
def firstArgument? (data : Bytes) : Option Word :=
  match splitSelector data with
  | .ok (_, payload) => Integrity.firstWord? payload
  | .error _ => none

/-- Calldata is not that of a batch. -/
def Direct (data : Bytes) : Prop :=
  ∀ payload, splitSelector data ≠ .ok (Abi.Signature.multicall.selector, payload)

namespace Memory

/-- Two stores hold the same record for a node, if one is named. -/
def AgreeOn (named : Option Word) (a b : Memory) : Prop :=
  ∀ n, named = some n → a.records[n]? = b.records[n]?

variable {a b : Memory} {c : Change}

theorem getD_congr {n : Word} (same : a.records[n]? = b.records[n]?) : a.getD n = b.getD n := by
  rw [getD, getD, same]

theorem refusal?_congr (same : a.records[c.node]? = b.records[c.node]?) :
    a.refusal? c = b.refusal? c := by
  cases c with
  | register node | transfer node => simp only [refusal?, getD_congr (n := node) same]
  | setMarker node marker =>
    have found : a.records[node]? = b.records[node]? := same
    simp only [refusal?, found]
  | setText | setAddress | setContenthash => rfl

/-- A change is answered by the record of its node alone, and makes the same of the same record. -/
theorem apply_congr (same : a.records[c.node]? = b.records[c.node]?) :
    (Store.apply c a).1 = (Store.apply c b).1 ∧
      (Store.apply c a).2.records[c.node]? = (Store.apply c b).2.records[c.node]? := by
  rw [apply_eq, apply_eq, refusal?_congr same]
  cases b.refusal? c with
  | some cause => exact ⟨rfl, same⟩
  | none =>
    refine ⟨rfl, ?_⟩
    rw [getElem?_put_self, getElem?_put_self, getD_congr same]

end Memory

namespace Course

variable {ρ τ : Type} {named : Option Word} {now now' : UInt64}

/-- Two courses, each run at a time of its own, do the same operations and look up or change no other record
than that of the named node. -/
inductive Alike (named : Option Word) (now now' : UInt64) : Course ρ → Course ρ → Prop where
  | done (answer : ρ) : Alike named now now' (.done answer) (.done answer)
  | domain {node : Word} {next next' : Except StoreError (Option Record) → Course ρ}
    (about : named = some node) (rest : ∀ found, Alike named now now' (next found) (next' found)) :
    Alike named now now' (.domain node next) (.domain node next')
  | change {c : Change} {next next' : Except StoreError Unit → Course ρ}
    (about : named = some c.node) (rest : ∀ answer, Alike named now now' (next answer) (next' answer)) :
    Alike named now now' (.change c next) (.change c next')
  | clock {next next' : UInt64 → Course ρ} (rest : Alike named now now' (next now) (next' now')) :
    Alike named now now' (.clock next) (.clock next')

namespace Alike

theorem bind {c c' : Course ρ} {f f' : ρ → Course τ} (first : Alike named now now' c c')
    (rest : ∀ answer, Alike named now now' (f answer) (f' answer)) :
    Alike named now now' (c.bind f) (c'.bind f') := by
  induction first with
  | done answer => exact rest answer
  | domain about _ ih => exact .domain about ih
  | change about _ ih => exact .change about ih
  | clock _ ih => exact .clock ih

variable {c c' : Course ρ} {w w' : World Memory}

/-- Courses that are alike end alike where the record of the named node is the same, and leave it the
same. -/
theorem run (alike : Alike named now now' c c') (time : w.now = now) (time' : w'.now = now')
    (agree : w.store.AgreeOn named w'.store) :
    (c.run w).1 = (c'.run w').1 ∧ (c.run w).2.store.AgreeOn named (c'.run w').2.store := by
  induction alike generalizing w w' with
  | done answer => exact ⟨rfl, agree⟩
  | @domain node next next' about rest ih =>
    have found : Store.domain w.store node = Store.domain w'.store node :=
      congrArg Except.ok (agree node about)
    simp only [Course.run, found]
    exact ih _ time time' agree
  | @change change next next' about rest ih =>
    obtain ⟨answer, record⟩ := Memory.apply_congr (agree change.node about)
    simp only [Course.run, World.apply, answer]
    refine ih _ time time' ?_
    intro n hn
    obtain rfl : change.node = n := Option.some.inj (about.symm.trans hn)
    exact record
  | @clock next next' rest ih =>
    simp only [Course.run, time, time']
    exact ih time time' agree

/-- The records of all other nodes stay. -/
theorem kept (alike : Alike named now now' c c') (time : w.now = now) {n : Word}
    (other : named ≠ some n) : (c.run w).2.store.records[n]? = w.store.records[n]? := by
  induction alike generalizing w with
  | done answer => rfl
  | domain about rest ih => exact ih _ time
  | @change change next next' about rest ih =>
    have elsewhere : n ≠ change.node := by
      rintro rfl
      exact other about
    have here : (Store.apply change w.store).2.records[n]? = w.store.records[n]? :=
      Memory.getElem?_apply_of_ne rfl elsewhere
    have later := ih (w.apply change).1 (w := (w.apply change).2) time
    exact later.trans here
  | @clock next next' rest ih =>
    simp only [Course.run, time]
    exact ih time

end Alike

end Course

namespace Resolver

variable {r : Resolver} {ctx ctx' : Context} {now now' : UInt64} {named : Option Word} {node : Word}

section Handlers

variable (stored : r.authority.ownership = .stored)
  (signed : r.authority.domain.signerAt ctx now = r.authority.domain.signerAt ctx' now')
include stored signed

theorem alike_permit (command : Command) : Course.Alike (some node) now now'
    (r.permit ctx node command) (r.permit ctx' node command) := by
  have signer : Course.Alike (some node) now now' (r.authority.signer ctx)
      (r.authority.signer ctx') := by
    refine .clock ?_
    rw [signed]
    exact .done _
  cases registers : command.registers with
  | true =>
    obtain ⟨ttl, rfl⟩ := Command.eq_register registers
    exact signer
  | false =>
    rw [permit_eq_authorize registers, permit_eq_authorize registers, Authority.authorize,
      Authority.authorize, stored]
    refine signer.bind fun found => ?_
    cases found with
    | error e => exact .done _
    | ok account =>
      refine .bind (.domain rfl fun record => .done _) fun owns => ?_
      cases owns with
      | error e => exact .done _
      | ok owns => cases owns <;> exact .done _

theorem alike_execute (command : Command) : Course.Alike (some node) now now'
    (r.execute ctx node command) (r.execute ctx' node command) := by
  unfold execute
  cases r.objection? command with
  | some e => exact .done _
  | none =>
    refine (alike_permit stored signed command).bind fun permitted => ?_
    cases permitted with
    | error e => exact .done _
    | ok signer =>
      refine .change (congrArg some (command.node_change node signer).symm) fun answer => ?_
      cases answer <;> exact .done _

/-- A function does the same for the same signer, and is about the node that its first argument names. -/
theorem alike_handler {op : Operation} {args : Arguments} (word : args.word 0 = .ok node) :
    Course.Alike (some node) now now' (r.handler op ctx args) (r.handler op ctx' args) := by
  unfold handler
  cases read : op.read args with
  | error e => exact .done _
  | ok asked =>
    obtain ⟨node', request⟩ := asked
    obtain rfl : node = node' := Except.ok.inj (word.symm.trans (Operation.word_of_read read).1)
    cases request with
    | query query =>
      refine .domain rfl fun found => ?_
      cases found <;> exact .done _
    | command command => exact alike_execute stored signed command

end Handlers

/-- Calldata that is not that of a batch does the same inside two batches for the same signer, and is about
the node that it names. -/
theorem alike_dispatch (stored : r.authority.ownership = .stored)
    (signed : r.authority.domain.signerAt ctx now = r.authority.domain.signerAt ctx' now')
    {data : Bytes} (direct : Direct data) : Course.Alike (firstArgument? data) now now'
      (r.table.dispatch (ctx.nested data)) (r.table.dispatch (ctx'.nested data)) := by
  have plain : ∀ selector payload signature, splitSelector data = .ok (selector, payload) →
      r.table.get? selector ≠ some ⟨signature, .batch⟩ := by
    intro selector payload signature split entry
    obtain ⟨rfl, -⟩ := r.built_table.of_batch entry
    exact direct payload split
  obtain ⟨cause, refused⟩ | ⟨selector, payload, signature, handler, args, split, entry, hargs, invoked⟩ :=
    Table.planAt_of_no_batch plain
  · rw [Table.dispatch, Table.dispatch, Table.plan, Table.plan, refused _ _ rfl, refused _ _ rfl,
      Plan.course, Plan.course]
    exact .done _
  · obtain ⟨-, heq⟩ | ⟨op, rfl, heq⟩ := get?_table_eq_some_iff.mp entry
    · cases heq
    · cases heq
      obtain ⟨node, first, word⟩ := Operation.word_of_decodeInput hargs
      have names : firstArgument? data = some node := by
        simp only [firstArgument?, split, first]
      have inner : r.authority.domain.signerAt (ctx.nested data) now =
          r.authority.domain.signerAt (ctx'.nested data) now' := by
        rw [Domain.signerAt_of_inherits (ctx.inherits_nested data),
          Domain.signerAt_of_inherits (ctx'.inherits_nested data), signed]
      rw [Table.dispatch, Table.dispatch, Table.plan, Table.plan, invoked _ _ rfl, invoked _ _ rfl, names,
        Plan.course, Plan.course]
      exact (alike_handler stored inner word).bind fun outcome => .done _

end Resolver

end OffchainNames
