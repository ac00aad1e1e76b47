import OffchainNames.Integrity
import OffchainNames.Proofs.Dispatch.Plan
import OffchainNames.Proofs.Dispatch.Table
import OffchainNames.Store.Memory

/-!
# The search for the written node

The search reads calldata a second time, after the calls were made. It agrees with the dispatch: what it
finds is the node that the last of the dispatched calls names, of those that are tracked and name one, at
any number of levels (`Integrity.affectedAt_eq_named`) and for a whole call
(`Integrity.affected_eq_getLast?_dispatched`).
-/

namespace OffchainNames

namespace Integrity

/-- The node that calldata names, if the function that it calls is tracked. -/
def named? (i : Integrity) (data : Bytes) : Option Word :=
  match splitSelector data with
  | .ok (selector, payload) => if i.tracked.contains selector then firstWord? payload else none
  | .error _ => none

/-- The nodes that the tracked calls among others name, in the order of the calls. -/
def named (i : Integrity) (calls : List Context) : List Word :=
  calls.filterMap fun ctx => i.named? ctx.data

variable {i : Integrity}

theorem named?_of_split {data payload : Bytes} {selector : Selector}
    (h : splitSelector data = .ok (selector, payload)) :
    i.named? data = if selector ∈ i.tracked then firstWord? payload else none := by
  simp [named?, h]

theorem named_cons_of_none {ctx : Context} (h : i.named? ctx.data = none) (rest : List Context) :
    i.named (ctx :: rest) = i.named rest :=
  List.filterMap_cons_none h

theorem getLast?_named_singleton (i : Integrity) (ctx : Context) :
    (i.named [ctx]).getLast? = i.named? ctx.data := by
  cases h : i.named? ctx.data <;> simp [named, h]

/-- Of the calls inside several plans, the last one that names a node is the last one in the last plan
that has such a call. -/
theorem getLast?_named_contextsOf (i : Integrity) (plans : List Plan) :
    (i.named (Plan.contextsOf plans)).getLast? =
      plans.reverse.findSome? fun plan => (i.named plan.contexts).getLast? := by
  rw [named, Plan.contextsOf_eq_flatMap, List.filterMap_flatMap, List.getLast?_flatMap]
  rfl

section Table

variable {t : Table} {levels : Nat} {ctx : Context}

/-- Where no batch is made, the search sees the call itself only. -/
theorem affectedAt_of_no_batch
    (holds : t.get? Abi.Signature.multicall.selector = some ⟨.multicall, .batch⟩)
    (h : ∀ slots, t.planAt levels ctx ≠ .batch ctx .multicall slots) :
    i.affectedAt levels ctx.data = i.named? ctx.data := by
  unfold affectedAt
  split
  · rename_i e hsplit
    simp [named?, hsplit]
  · rename_i selector payload hsplit
    rw [named?_of_split hsplit]
    by_cases tracked : selector ∈ i.tracked
    · simp [tracked]
    · by_cases hselector : selector = Abi.Signature.multicall.selector
      · subst hselector
        simp only [List.contains_eq_mem, tracked, decide_false, Bool.false_eq_true, if_false,
          ne_eq, not_true]
        repeat' split
        · rfl
        · rfl
        · rfl
        -- With a level left and calls that decode, the batch would have been made.
        · rename_i inner _ args hargs _ calls hcalls
          have made := Table.planAt_eq_batch_iff.mpr
            ⟨rfl, _, payload, args, calls, inner, hsplit, holds, hargs, rfl, hcalls, rfl⟩
          exact absurd made (h _)
      · simp [tracked, hselector]

/-- Where a batch is made, the search goes through its calls from the last one to the first. -/
theorem affectedAt_of_batch (built : t.Built)
    (untracked : Abi.Signature.multicall.selector ∉ i.tracked) {slots : List Plan}
    (h : t.planAt (levels + 1) ctx = .batch ctx .multicall slots) :
    ∃ calls : List Bytes, slots = calls.map (fun data => t.planAt levels (ctx.nested data)) ∧
      i.affectedAt (levels + 1) ctx.data = calls.reverse.findSome? (i.affectedAt levels) ∧
      i.named? ctx.data = none := by
  obtain ⟨-, selector, payload, args, calls, inner, hsplit, hget, hargs, hlevels, hcalls, hslots⟩ :=
    Table.planAt_eq_batch_iff.mp h
  obtain ⟨rfl, -⟩ := built.of_batch hget
  cases hlevels
  refine ⟨calls, hslots, ?_, ?_⟩
  · rw [affectedAt]
    simp [hsplit, untracked, hargs, hcalls]
  · rw [named?_of_split hsplit, if_neg untracked]

/-- The search finds what the last tracked call names of those that are dispatched. -/
theorem affectedAt_eq_named (built : t.Built)
    (holds : t.get? Abi.Signature.multicall.selector = some ⟨.multicall, .batch⟩)
    (untracked : Abi.Signature.multicall.selector ∉ i.tracked) (levels : Nat) (ctx : Context) :
    i.affectedAt levels ctx.data = (i.named (t.planAt levels ctx).contexts).getLast? := by
  -- The calls of a batch have one level less each, and a context of their own.
  induction levels generalizing ctx with
  | zero =>
    have no_batch : ∀ slots, t.planAt 0 ctx ≠ .batch ctx .multicall slots := by
      intro slots h
      obtain ⟨-, _, _, _, _, _, -, -, -, hlevels, -⟩ := Table.planAt_eq_batch_iff.mp h
      cases hlevels
    rw [affectedAt_of_no_batch holds no_batch, built.contexts_of_no_batch no_batch,
      getLast?_named_singleton]
  | succ levels ih =>
    by_cases hbatch : ∃ slots, t.planAt (levels + 1) ctx = .batch ctx .multicall slots
    · obtain ⟨slots, hplan⟩ := hbatch
      obtain ⟨calls, rfl, haffected, hnamed⟩ := affectedAt_of_batch built untracked hplan
      have hcalls : i.affectedAt levels = fun data =>
          (i.named (t.planAt levels (ctx.nested data)).contexts).getLast? := by
        funext data
        exact ih (ctx.nested data)
      rw [haffected, hplan, Plan.contexts, named_cons_of_none hnamed, getLast?_named_contextsOf,
        ← List.map_reverse, List.findSome?_map, hcalls]
      rfl
    · have no_batch := not_exists.mp hbatch
      rw [affectedAt_of_no_batch holds no_batch, built.contexts_of_no_batch no_batch,
        getLast?_named_singleton]

end Table

end Integrity

/-- The calldata of every call that is dispatched when a call is handled, its own first and then that of
the calls of its batches, in the order in which they start. -/
def Table.dispatched {σ : Type} [Store σ] (t : Table) (call : Call) (w : World σ) : List Bytes :=
  ((t.plan (.ofCall call)).visits w).map fun visit => visit.1.context.data

namespace Integrity

variable {σ : Type} [Store σ] {i : Integrity} {t : Table}

/-- The search finds the node that the last dispatched call names, of those that name one. -/
theorem affected_eq_getLast?_dispatched (built : t.Built)
    (holds : t.get? Abi.Signature.multicall.selector = some ⟨.multicall, .batch⟩)
    (untracked : Abi.Signature.multicall.selector ∉ i.tracked) (call : Call) (w : World σ) :
    i.affected call.data = ((t.dispatched call w).filterMap i.named?).getLast? := by
  have visited : t.dispatched call w =
      (t.plan (.ofCall call)).contexts.map Context.data := by
    rw [Plan.contexts_eq_map, ← Plan.map_fst_visits _ w, List.map_map, List.map_map]
    rfl
  have search := affectedAt_eq_named built holds untracked maxBatches (.ofCall call)
  rw [visited, List.filterMap_map]
  exact search

end Integrity

namespace NestedSearch

/-- A stage that tracks one function. -/
def tracking : Integrity := { tracked := [0xdeadbeef] }

/-- Calldata of the tracked function that names node 7. -/
def naming : Bytes := [0xde, 0xad, 0xbe, 0xef] ++ Bytes.ofBits (7 : Word)

/-- Calldata of the tracked function that is too short to name a node. -/
def short : Bytes := [0xde, 0xad, 0xbe, 0xef, 0x00]

/-- The calldata of a batch. -/
def batch (calls : List Bytes) : Bytes :=
  Bytes.ofBits (0xac9650d8 : Selector) ++ Abi.encode [.array (calls.map .bytes)]

/-- A batch of a batch and a call that names no node. -/
def call : Call := ⟨0, batch [batch [naming], short], none⟩

/-- A world without records. -/
def world : World Memory := { store := Memory.empty, now := 0 }

end NestedSearch

/-- The node that a call in an inner batch names is found, after which no call names one. -/
theorem found_in_inner_batch :
    Abi.Signature.multicall.selector ∉ NestedSearch.tracking.tracked ∧
    NestedSearch.tracking.affected NestedSearch.call.data = some 7 ∧
    ((Table.standard.dispatched NestedSearch.call NestedSearch.world).filterMap
      NestedSearch.tracking.named?).getLast? = some 7 := by
  have untracked : Abi.Signature.multicall.selector ∉ NestedSearch.tracking.tracked := by
    rw [Abi.Signature.selector_multicall]
    decide
  have holds : Table.standard.get? Abi.Signature.multicall.selector = some ⟨.multicall, .batch⟩ := by
    rw [Table.get?_standard, if_pos rfl]
  have found : NestedSearch.tracking.affected NestedSearch.call.data = some 7 := by
    decide +kernel
  refine ⟨untracked, found, ?_⟩
  rw [← Integrity.affected_eq_getLast?_dispatched .standard holds untracked]
  exact found

end OffchainNames
