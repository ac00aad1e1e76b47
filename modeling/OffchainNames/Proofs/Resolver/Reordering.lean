import Mathlib.Data.List.FinRange
import Mathlib.Data.List.Sort
import OffchainNames.Proofs.Dispatch.Fold
import OffchainNames.Proofs.Resolver.Lifecycle
import OffchainNames.Proofs.Resolver.Locality

/-!
# Calls about different nodes commute

A batch of calls may be put in another order as long as calls that name the same node stay in their order:
each call then gets the same answer, in its new place, and the store is left the same
(`Resolver.slots_commute`). For one node only the calls that name it count, and these are the same in every
such order (`Arranges.filter_eq`), also those before a given call (`Arranges.filter_before`).
-/

namespace OffchainNames

/-- Two calls name the same node. -/
def SameNode (a b : Bytes) : Prop :=
  ∃ node, firstArgument? a = some node ∧ firstArgument? b = some node

/-- A permutation keeps calls that name the same node in their order. -/
def KeepsOrder (calls : List Bytes) (σ : Equiv.Perm (Fin calls.length)) : Prop :=
  ∀ j k, j < k → SameNode calls[σ j] calls[σ k] → σ j < σ k

/-- Whether a call names a node. -/
def namesNode (node : Word) (data : Bytes) : Bool := firstArgument? data = some node

theorem namesNode_iff {node : Word} {data : Bytes} :
    namesNode node data = true ↔ firstArgument? data = some node := decide_eq_true_iff

/-- The calls in an order of their places. -/
def arranged (calls : List Bytes) (order : List (Fin calls.length)) : List Bytes :=
  order.map fun i => calls[i]

/-- An order has every place once, and those of calls that name the same node in their order. -/
structure Arranges (calls : List Bytes) (order : List (Fin calls.length)) : Prop where
  perm : order.Perm (List.finRange calls.length)
  keeps : order.Pairwise fun i j => SameNode calls[i] calls[j] → i < j

section Orders

variable {calls : List Bytes} {order before later : List (Fin calls.length)} {i : Fin calls.length}
  {node : Word}

theorem arranges_finRange (calls : List Bytes) : Arranges calls (List.finRange calls.length) where
  perm := .refl _
  keeps := by
    refine (List.pairwise_lt_finRange _).imp ?_
    intro i j smaller _
    exact smaller

theorem KeepsOrder.arranges {σ : Equiv.Perm (Fin calls.length)} (keeps : KeepsOrder calls σ) :
    Arranges calls (List.ofFn σ) where
  perm := by
    have perm := σ.ofFn_comp_perm id
    rwa [List.ofFn_id] at perm
  keeps := List.pairwise_ofFn.mpr fun j k => keeps j k

theorem direct_arranged (direct : ∀ data ∈ calls, Direct data) :
    ∀ data ∈ arranged calls order, Direct data := by
  intro data member
  obtain ⟨i, -, rfl⟩ := List.mem_map.mp member
  exact direct _ (List.getElem_mem i.isLt)

theorem arranged_finRange (calls : List Bytes) :
    arranged calls (List.finRange calls.length) = calls :=
  List.map_getElem_finRange calls

namespace Arranges

/-- The calls that name a node are in the same order in every order. -/
theorem filter_eq (h : Arranges calls order) (node : Word) :
    order.filter (fun i => namesNode node calls[i]) =
      (List.finRange calls.length).filter (fun i => namesNode node calls[i]) := by
  have ordered : (order.filter fun i => namesNode node calls[i]).Pairwise (· < ·) := by
    rw [List.pairwise_filter]
    refine h.keeps.imp ?_
    intro i j keeps hi hj
    exact keeps ⟨node, namesNode_iff.mp hi, namesNode_iff.mp hj⟩
  exact List.Perm.eq_of_pairwise' ordered ((List.pairwise_lt_finRange _).filter _) (h.perm.filter _)

/-- Before a call that names a node, the others that name it are the same in every order. -/
theorem filter_before (h : Arranges calls (before ++ i :: later))
    (named : firstArgument? calls[i] = some node) :
    before.filter (fun j => namesNode node calls[j]) =
      ((List.finRange calls.length).filter (fun j => namesNode node calls[j])).filter (· < i) := by
  have keeps := h.keeps
  rw [List.pairwise_append, List.pairwise_cons] at keeps
  obtain ⟨-, ⟨behind, -⟩, ahead⟩ := keeps
  have smaller : (before.filter fun j => namesNode node calls[j]).filter (· < i) =
      before.filter fun j => namesNode node calls[j] := by
    refine List.filter_eq_self.mpr ?_
    intro j member
    obtain ⟨inside, names⟩ := List.mem_filter.mp member
    exact decide_eq_true
      (ahead j inside i (List.mem_cons_self ..) ⟨node, namesNode_iff.mp names, named⟩)
  have larger : ((i :: later).filter fun j => namesNode node calls[j]).filter (· < i) = [] := by
    refine List.filter_eq_nil_iff.mpr ?_
    intro j member below
    obtain ⟨inside, names⟩ := List.mem_filter.mp member
    have less : j < i := of_decide_eq_true below
    obtain rfl | inside := List.mem_cons.mp inside
    · exact lt_irrefl j less
    · exact lt_asymm less (behind j inside ⟨node, named, namesNode_iff.mp names⟩)
  rw [← h.filter_eq node, List.filter_append, List.filter_append, smaller, larger, List.append_nil]

theorem filter_arranged (h : Arranges calls order) (node : Word) :
    (arranged calls order).filter (namesNode node) = calls.filter (namesNode node) := by
  conv_rhs => rw [← arranged_finRange calls]
  rw [arranged, arranged, List.filter_map, List.filter_map]
  exact congrArg _ (h.filter_eq node)

theorem filter_take (h : Arranges calls order) {k : Nat} (found : order[k]? = some i)
    (named : firstArgument? calls[i] = some node) :
    ((arranged calls order).take k).filter (namesNode node) =
      (((List.finRange calls.length).filter fun j => namesNode node calls[j]).filter (· < i)).map
        fun j => calls[j] := by
  obtain ⟨inside, rfl⟩ := List.getElem?_eq_some_iff.mp found
  have split : order = order.take k ++ order[k] :: order.drop (k + 1) := by
    rw [← List.drop_eq_getElem_cons inside, List.take_append_drop]
  have whole : Arranges calls (order.take k ++ order[k] :: order.drop (k + 1)) := split ▸ h
  rw [← whole.filter_before named, arranged, ← List.map_take, List.filter_map]
  rfl

/-- Before a call that names a node, the calls that name it are those before it in the list. -/
theorem filter_take_arranged (h : Arranges calls order) {k : Nat} (found : order[k]? = some i)
    (named : firstArgument? calls[i] = some node) :
    ((arranged calls order).take k).filter (namesNode node) =
      (calls.take i).filter (namesNode node) := by
  have place : (List.finRange calls.length)[(i : Nat)]? = some i := by simp
  have listed := (arranges_finRange calls).filter_take place named
  rw [arranged_finRange] at listed
  rw [listed, h.filter_take found named]

end Arranges

end Orders

namespace Resolver

variable {r : Resolver} {calls calls' : List Bytes} {ctx ctx' : Context} {w w' : World Memory}
  {node : Word}

/-- For the record of a node only the calls that name it count. -/
theorem agreeOn_after_filter (stored : r.authority.ownership = .stored)
    (direct : ∀ data ∈ calls, Direct data)
    (signed : r.authority.domain.signerAt ctx w.now = r.authority.domain.signerAt ctx' w'.now)
    (agree : w.store.AgreeOn (some node) w'.store) :
    (r.table.after ctx calls w).store.AgreeOn (some node)
      (r.table.after ctx' (calls.filter (namesNode node)) w').store := by
  induction calls generalizing w w' with
  | nil => exact agree
  | cons data rest ih =>
    obtain ⟨here, others⟩ := List.forall_mem_cons.mp direct
    by_cases named : firstArgument? data = some node
    · have alike := alike_dispatch stored signed here
      rw [named] at alike
      rw [List.filter_cons_of_pos (namesNode_iff.mpr named), Table.after_cons, Table.after_cons]
      refine ih others ?_ (alike.run rfl rfl agree).2
      rw [Course.run_now, Course.run_now, signed]
    · have alike := alike_dispatch stored
        (rfl : r.authority.domain.signerAt ctx w.now = r.authority.domain.signerAt ctx w.now) here
      rw [List.filter_cons_of_neg (fun names => named (namesNode_iff.mp names)), Table.after_cons]
      refine ih others ?_ ?_
      · rw [Course.run_now, signed]
      · rintro n ⟨⟩
        exact (alike.kept rfl named).trans (agree node rfl)

/-- After two lists of calls a node has the same record if the calls that name it are the same. -/
theorem agreeOn_after (stored : r.authority.ownership = .stored)
    (direct : ∀ data ∈ calls, Direct data) (direct' : ∀ data ∈ calls', Direct data)
    (signed : r.authority.domain.signerAt ctx w.now = r.authority.domain.signerAt ctx' w'.now)
    (same : w.store = w'.store) (filtered : calls.filter (namesNode node) = calls'.filter (namesNode node)) :
    (r.table.after ctx calls w).store.AgreeOn (some node) (r.table.after ctx' calls' w').store := by
  have start : w.store.AgreeOn (some node) w'.store := fun n _ => by rw [same]
  have restart : w'.store.AgreeOn (some node) w'.store := fun n _ => rfl
  have left := agreeOn_after_filter stored direct signed start
  have right := agreeOn_after_filter stored direct'
    (rfl : r.authority.domain.signerAt ctx' w'.now = r.authority.domain.signerAt ctx' w'.now) restart
  rw [filtered] at left
  intro n hn
  exact (left n hn).trans (right n hn).symm

/-- A call is answered in its place as it is in the list. -/
theorem answer_arranged (stored : r.authority.ownership = .stored)
    (direct : ∀ data ∈ calls, Direct data)
    (signed : r.authority.domain.signerAt ctx' w'.now = r.authority.domain.signerAt ctx w.now)
    (same : w'.store = w.store) {order : List (Fin calls.length)} (arranges : Arranges calls order)
    {k : Nat} {i : Fin calls.length} (found : order[k]? = some i) :
    ((r.table.dispatch (ctx'.nested calls[i])).run
        (r.table.after ctx' ((arranged calls order).take k) w')).1 =
      ((r.table.dispatch (ctx.nested calls[i])).run (r.table.after ctx (calls.take i) w)).1 := by
  have later : r.authority.domain.signerAt ctx'
        (r.table.after ctx' ((arranged calls order).take k) w').now =
      r.authority.domain.signerAt ctx (r.table.after ctx (calls.take i) w).now := by
    rw [Table.now_after, Table.now_after, signed]
  have alike := alike_dispatch stored later (direct _ (List.getElem_mem i.isLt))
  refine (alike.run rfl rfl ?_).1
  intro node named
  exact agreeOn_after stored
    (fun data member => direct_arranged direct data (List.mem_of_mem_take member))
    (fun data member => direct data (List.mem_of_mem_take member)) signed same
    (arranges.filter_take_arranged found named) node rfl

/-- The calls have answers, one for each, that they get in every order. -/
theorem exists_answers (stored : r.authority.ownership = .stored)
    (direct : ∀ data ∈ calls, Direct data) (ctx : Context) (w : World Memory) :
    ∃ answer : Fin calls.length → Response, ∀ {order : List (Fin calls.length)} {ctx' w'},
      Arranges calls order →
      r.authority.domain.signerAt ctx' w'.now = r.authority.domain.signerAt ctx w.now →
      w'.store = w.store →
      ((Plan.courses ((arranged calls order).map fun data => r.table.plan (ctx'.nested data))).run
        w').1 = (order.map answer).map .answered := by
  have answered : ∀ i : Fin calls.length, ∃ response,
      ((r.table.dispatch (ctx.nested calls[i])).run (r.table.after ctx (calls.take i) w)).1 =
        .answered response := fun i => r.run_planAt_answered _ _ _
  choose answer hanswer using answered
  refine ⟨answer, ?_⟩
  intro order ctx' w' arranges signed same
  refine List.ext_getElem? fun k => ?_
  rw [List.getElem?_map, List.getElem?_map]
  cases found : order[k]? with
  | none =>
    have outside := List.getElem?_eq_none_iff.mp found
    refine List.getElem?_eq_none_iff.mpr ?_
    rw [Plan.length_run_courses, List.length_map, arranged, List.length_map]
    exact outside
  | some i =>
    have here : (arranged calls order)[k]? = some calls[i] := by
      rw [arranged, List.getElem?_map, found, Option.map_some]
    obtain ⟨inside, hcall⟩ := List.getElem?_eq_some_iff.mp here
    rw [r.table.getElem?_run_courses_dispatch ctx' inside, hcall,
      answer_arranged stored direct signed same arranges found, hanswer]
    rfl

namespace TwoWrites

/-- The calldata of the batch with the clearing first. -/
def swappedData : Bytes :=
  Bytes.ofBits Abi.Signature.multicall.selector ++
    Abi.encode [.array ([clearing, registration].map .bytes)]

/-- The signature of the account over it. -/
def swappedSignature : Signature :=
  ⟨0xcbe8c4b45360f6a02c3cddb5328fdf55274570fffc3d424997dc28f39951c87f,
    0x1a9d91248ae8901e9b9d861e17c05c2161a96bf75d9493573d48e731bac69f47, true⟩

/-- The call with the clearing first. -/
def swapped : Call :=
  ⟨0xc0, swappedData, some ⟨swappedSignature.toBytes, ⟨swappedData, 0xc0, 4102444800⟩⟩⟩

theorem swappedData_eq : swappedData = Bytes.ofBits (0xac9650d8 : Selector) ++
    Abi.encode [.array [.bytes clearing, .bytes registration]] := by
  rw [swappedData, Abi.Signature.selector_multicall]
  rfl

set_option maxRecDepth 1000 in
theorem recover_swapped : recoverSigner swappedSignature.toBytes
    ((Message.mk swappedData 0xc0 4102444800).digest resolver.authority.domain) = .ok account := by
  have callData : keccak256 swappedData =
      0x260c07305dc43d4dfb79d7ef88dbbd5c018506fe4d744e4d3b2dd8dde8f48c0c := by
    rw [swappedData_eq]
    refine keccak256_of_eq (by conv => lhs; cbv) ?_
    decide +kernel
  have digest : digestFor 0x260c07305dc43d4dfb79d7ef88dbbd5c018506fe4d744e4d3b2dd8dde8f48c0c =
      0x1bc0270d2dfdeb2c8eeca010e89cf876c0f458ead0f8af5b1adb2dcc5dced5bd := by
    decide +kernel
  refine recover_of_callData callData digest ?_
  unfold swappedSignature account
  decide +kernel

theorem batches_request : (Context.ofCall (request (some authorization))).Batches
    [registration, clearing] := by
  obtain ⟨args, hargs, hcalls⟩ := Except.bind_eq_ok_iff.mp read_calls.2.2
  exact ⟨_, args, split_data, hargs, hcalls⟩

theorem batches_swapped : (Context.ofCall swapped).Batches [clearing, registration] := by
  refine Table.batches_of_encodeCall (Abi.Signature.encodeCall_multicall _) ?_
  show swappedData.length < UInt64.size
  rw [swappedData_eq]
  set_option maxRecDepth 4096 in decide

theorem firstArgument_registration : firstArgument? registration = some 1 := by
  simp only [firstArgument?, split_registration]
  decide

theorem firstArgument_clearing : firstArgument? clearing = some 2 := by
  simp only [firstArgument?, split_clearing]
  decide

theorem direct_writes : ∀ inner ∈ [registration, clearing], Direct inner := by
  intro inner member payload split
  obtain rfl | rfl : inner = registration ∨ inner = clearing := by simpa using member
  · rw [split_registration] at split
    exact Operation.register.selector_ne_multicall (Prod.mk.inj (Except.ok.inj split)).1
  · rw [split_clearing] at split
    exact Operation.setContenthash.selector_ne_multicall (Prod.mk.inj (Except.ok.inj split)).1

/-- The writes name different nodes, so that they may change places. -/
theorem keepsOrder_rev : KeepsOrder [registration, clearing] Fin.revPerm := by
  rintro ⟨j, hj⟩ ⟨k, hk⟩ smaller ⟨node, named, named'⟩
  have less : j < k := smaller
  simp only [List.length_cons, List.length_nil] at hk
  obtain ⟨rfl, rfl⟩ : j = 0 ∧ k = 1 := by omega
  have first : firstArgument? clearing = some node := named
  have second : firstArgument? registration = some node := named'
  rw [firstArgument_clearing] at first
  rw [firstArgument_registration, ← first] at second
  exact absurd second (by decide)

end TwoWrites

end Resolver

end OffchainNames
