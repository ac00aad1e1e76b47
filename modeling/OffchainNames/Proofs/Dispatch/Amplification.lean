import OffchainNames.Proofs.Abi.Extents
import OffchainNames.Proofs.Dispatch.Fold
import OffchainNames.Proofs.Integrity.Search
import OffchainNames.Proofs.Resolver.WriteSafety

/-!
# How many calls one call can hold

The calls of a batch may share their bytes, and each of them may be a batch again. So the number of calls
inside a call is not bounded by the length of its calldata: at each level it grows by as many times as
there are distances. Eight levels of batches and a word for each distance are what bounds it
(`Table.inner_calls_bounded`). Where the calls of each batch stand in its calldata next to each other, one
word is spent on each call inside. Calldata that shares all it can has as many calls as the sum of powers
in that bound (`Table.subplans_amplified`).
-/

namespace OffchainNames

/-- The sum `m + m² + ⋯` of that many powers of a number. -/
def sumOfPowers (m : Nat) : Nat → Nat
  | 0 => 0
  | k + 1 => m * (1 + sumOfPowers m k)

theorem sumOfPowers_mono {m n : Nat} (h : m ≤ n) (k : Nat) : sumOfPowers m k ≤ sumOfPowers n k := by
  induction k with
  | zero => exact Nat.le_refl 0
  | succ k ih => exact Nat.mul_le_mul h (Nat.add_le_add_left ih 1)

namespace Plan

theorem length_subplansOf_le {plans : List Plan} {bound : Nat}
    (each : ∀ plan ∈ plans, plan.subplans.length ≤ bound) :
    (subplansOf plans).length ≤ plans.length * bound := by
  induction plans with
  | nil => exact Nat.zero_le _
  | cons plan rest ih =>
    have first := each plan (List.mem_cons_self ..)
    have others := ih fun plan member => each plan (List.mem_cons_of_mem _ member)
    rw [subplansOf, List.length_append, List.length_cons, Nat.succ_mul]
    omega

theorem length_subplansOf_replicate (plan : Plan) (count : Nat) :
    (subplansOf (List.replicate count plan)).length = count * plan.subplans.length := by
  induction count with
  | zero => simp [subplansOf]
  | succ count ih =>
    rw [List.replicate_succ, subplansOf, List.length_append, ih, Nat.succ_mul, Nat.add_comm]

/-- The bytes of the calls of a batch, with a word for each. -/
def spent : List Plan → Nat
  | [] => 0
  | slot :: rest => 32 + slot.context.data.length + spent rest

/-- The calldata of every batch inside a plan is at least as long as its calls with a word for each. -/
def Spends (plan : Plan) : Prop :=
  ∀ ctx signature slots, batch ctx signature slots ∈ plan.subplans → spent slots ≤ ctx.data.length

theorem Spends.of_slot {ctx : Context} {signature : Abi.Signature} {slots : List Plan} {slot : Plan}
    (spends : (batch ctx signature slots).Spends) (member : slot ∈ slots) : slot.Spends := by
  intro ctx' signature' slots' inside
  exact spends ctx' signature' slots' (mem_subplans_batch.mpr (.inr ⟨slot, member, inside⟩))

theorem Spends.batch {ctx : Context} {signature : Abi.Signature} {slots : List Plan}
    (own : spent slots ≤ ctx.data.length) (each : ∀ slot ∈ slots, slot.Spends) :
    (batch ctx signature slots).Spends := by
  intro ctx' signature' slots' inside
  rcases mem_subplans_batch.mp inside with same | ⟨slot, member, inside⟩
  · cases same
    exact own
  · exact each slot member ctx' signature' slots' inside

theorem spends_invoke (ctx : Context) (signature : Abi.Signature) (handler : Handler)
    (args : Arguments) : (invoke ctx signature handler args).Spends := by
  intro ctx' signature' slots inside
  cases List.mem_singleton.mp inside

theorem length_subplansOf_le_spent {plans : List Plan}
    (each : ∀ plan ∈ plans, 32 * plan.subplans.length ≤ plan.context.data.length + 32) :
    32 * (subplansOf plans).length ≤ spent plans := by
  induction plans with
  | nil => exact Nat.le_refl 0
  | cons plan rest ih =>
    have first := each plan (List.mem_cons_self ..)
    have others := ih fun plan member => each plan (List.mem_cons_of_mem _ member)
    rw [subplansOf, List.length_append, spent]
    omega

/-- Where calls share no bytes, each call inside a plan costs the plan a word. -/
theorem Spends.length_subplans {plan : Plan} (spends : plan.Spends) :
    32 * plan.subplans.length ≤ plan.context.data.length + 32 := by
  induction plan using Plan.induction with
  | refused ctx cause | invoke ctx signature handler args =>
    show 32 * 1 ≤ _
    omega
  | batch ctx signature slots ih =>
    have own := spends ctx signature slots (mem_subplans_self _)
    have inside := length_subplansOf_le_spent fun slot member =>
      ih slot member (spends.of_slot member)
    rw [subplans, List.length_cons, context]
    omega

theorem spent_le_totalSize (slots : List Plan) : spent slots ≤
    Abi.Part.totalSize (Abi.Value.parts (slots.map fun slot => .bytes slot.context.data)) := by
  induction slots with
  | nil => exact Nat.le_refl 0
  | cons slot rest ih =>
    have padded := slot.context.data.length_le_padRight
    rw [List.map_cons, spent, Abi.Value.parts, Abi.Part.totalSize_cons, Abi.Value.size_bytes]
    omega

/-- Calls that are encoded one after the other share no bytes. -/
theorem spent_of_encoded {slots : List Plan} {data : Bytes}
    (encoded : data = Bytes.ofBits Abi.Signature.multicall.selector ++
      Abi.encode [.array (slots.map fun slot => .bytes slot.context.data)]) :
    spent slots ≤ data.length := by
  have inside := spent_le_totalSize slots
  rw [encoded, List.length_append, Abi.length_encode_array]
  omega

end Plan

namespace Table

variable {t : Table}

/-- The calls of a batch are one for each 32 bytes of its calldata at most, and none is longer. -/
theorem Built.slots_of_planAt (built : t.Built) {levels : Nat} {ctx ctx' : Context}
    {signature : Abi.Signature} {slots : List Plan}
    (h : t.planAt levels ctx = .batch ctx' signature slots) :
    ∃ (inner : Nat) (calls : List Bytes), levels = inner + 1 ∧
      slots = calls.map (fun data => t.planAt inner (ctx.nested data)) ∧
      calls.length ≤ ctx.data.length / 32 ∧ ∀ data ∈ calls, data.length ≤ ctx.data.length := by
  obtain ⟨rfl, selector, payload, args, calls, inner, split, hget, read, rfl, holds, rfl⟩ :=
    planAt_eq_batch_iff.mp h
  obtain ⟨-, rfl⟩ := built.of_batch hget
  obtain ⟨count, each⟩ := Abi.extents_of_decodeInput read holds
  have shorter : payload.length ≤ ctx'.data.length := by
    unfold splitSelector at split
    split at split
    · cases split
    · cases split
      rw [List.length_drop]
      omega
  refine ⟨inner, calls, rfl, rfl, by omega, ?_⟩
  intro data member
  exact Nat.le_trans (each data member) shorter

/-- With a number of levels left, a call holds at most that sum of powers of the words of its calldata. -/
theorem Built.length_subplans_planAt (built : t.Built) (levels : Nat) (ctx : Context) :
    (t.planAt levels ctx).subplans.length ≤ 1 + sumOfPowers (ctx.data.length / 32) levels := by
  induction levels generalizing ctx with
  | zero =>
    cases plan : t.planAt 0 ctx with
    | refused ctx' cause | invoke ctx' signature handler args => exact Nat.le_refl 1
    | batch ctx' signature slots =>
      obtain ⟨inner, calls, levels, -⟩ := built.slots_of_planAt plan
      cases levels
  | succ levels ih =>
    cases plan : t.planAt (levels + 1) ctx with
    | refused ctx' cause | invoke ctx' signature handler args => exact Nat.le_add_right 1 _
    | batch ctx' signature slots =>
      obtain ⟨inner, calls, heq, rfl, count, each⟩ := built.slots_of_planAt plan
      cases heq
      have slot : ∀ plan ∈ calls.map (fun data => t.planAt levels (ctx.nested data)),
          plan.subplans.length ≤ 1 + sumOfPowers (ctx.data.length / 32) levels := by
        intro plan member
        obtain ⟨data, inside, rfl⟩ := List.mem_map.mp member
        have shorter : data.length / 32 ≤ ctx.data.length / 32 :=
          Nat.div_le_div_right (each data inside)
        exact Nat.le_trans (ih _) (Nat.add_le_add_left (sumOfPowers_mono shorter levels) 1)
      have all := Plan.length_subplansOf_le slot
      rw [List.length_map] at all
      have most := Nat.mul_le_mul_right (1 + sumOfPowers (ctx.data.length / 32) levels) count
      rw [Plan.subplans, List.length_cons, sumOfPowers]
      omega

section Run

variable {σ : Type} [Store σ]

theorem length_dispatched (t : Table) (call : Call) (w : World σ) :
    (t.dispatched call w).length = (t.plan (.ofCall call)).subplans.length := by
  rw [dispatched, List.length_map, ← Plan.map_fst_visits _ w, List.length_map]

/-- The number of calls that are dispatched inside a call is at most the sum of the first eight powers of
the number of words of its calldata. Where the calldata of every batch is at least as long as its calls
with a word for each, it is at most the number of words. -/
theorem inner_calls_bounded (built : t.Built) (call : Call) (w : World σ) :
    (t.dispatched call w).tail.length ≤ sumOfPowers (call.data.length / 32) maxBatches ∧
      ((t.plan (.ofCall call)).Spends →
        (t.dispatched call w).tail.length ≤ call.data.length / 32) := by
  rw [List.length_tail, length_dispatched]
  constructor
  · have bound := built.length_subplans_planAt maxBatches (.ofCall call)
    have planned : t.plan (.ofCall call) = t.planAt maxBatches (.ofCall call) := rfl
    have data : (Context.ofCall call).data = call.data := rfl
    rw [planned]
    rw [data] at bound
    omega
  · intro spends
    have bound := spends.length_subplans
    rw [plan, context_planAt] at bound
    have data : (Context.ofCall call).data = call.data := rfl
    rw [data] at bound
    rw [plan]
    omega

end Run

end Table

namespace Resolver

namespace TwoWrites

/-- The two calls of the batch stand next to each other. -/
theorem spends_request : (resolver.table.plan (.ofCall (request none))).Spends := by
  obtain ⟨args₁, args₂, -, -, plan⟩ := plan_request none
  rw [plan]
  refine Plan.Spends.batch (Plan.spent_of_encoded ?_) ?_
  · rw [Abi.Signature.selector_multicall]
    rfl
  · intro slot member
    rcases List.mem_cons.mp member with rfl | member
    · exact Plan.spends_invoke _ _ _ _
    · rw [List.mem_singleton.mp member]
      exact Plan.spends_invoke _ _ _ _

end TwoWrites

end Resolver

/-- The batch of two writes is one of those whose calls share no bytes. -/
theorem two_writes_bounded :
    Resolver.TwoWrites.resolver.table.Built ∧
      (Resolver.TwoWrites.resolver.table.plan (.ofCall (Resolver.TwoWrites.request none))).Spends ∧
      (Resolver.TwoWrites.resolver.table.dispatched (Resolver.TwoWrites.request none)
        Resolver.TwoWrites.vacant).tail.length ≤
          sumOfPowers ((Resolver.TwoWrites.request none).data.length / 32) maxBatches ∧
      (Resolver.TwoWrites.resolver.table.dispatched (Resolver.TwoWrites.request none)
        Resolver.TwoWrites.vacant).tail.length ≤ (Resolver.TwoWrites.request none).data.length / 32 :=
  have bounds := Table.inner_calls_bounded Resolver.TwoWrites.resolver.built_table
    (Resolver.TwoWrites.request none) Resolver.TwoWrites.vacant
  ⟨Resolver.TwoWrites.resolver.built_table, Resolver.TwoWrites.spends_request, bounds.1,
    bounds.2 Resolver.TwoWrites.spends_request⟩

namespace Table

variable {t : Table}

/-- Calldata of batches inside each other, each with the given number of calls that are one and the
same. -/
def amplified (count : Nat) : Nat → Bytes
  | 0 => []
  | levels + 1 =>
    Bytes.ofBits Abi.Signature.multicall.selector ++ Abi.sharing count (amplified count levels)

theorem length_amplified (count levels : Nat) :
    (amplified count levels).length = levels * (100 + 32 * count) := by
  induction levels with
  | zero => simp [amplified]
  | succ levels ih =>
    have selector : (Bytes.ofBits Abi.Signature.multicall.selector).length = 4 := Bytes.length_ofBits _
    rw [amplified, List.length_append, selector, Abi.length_sharing, ih,
      Nat.add_one_mul levels]
    omega

/-- It holds as many calls as the sum of powers of that number. -/
theorem subplans_amplified
    (holds : t.get? Abi.Signature.multicall.selector = some ⟨.multicall, .batch⟩) {count inner : Nat}
    {levels : Nat} {ctx : Context} (room : inner ≤ levels) (data : ctx.data = amplified count inner)
    (short : inner * (100 + 32 * count) < UInt64.size) :
    (t.planAt levels ctx).subplans.length = 1 + sumOfPowers count inner := by
  induction inner generalizing levels ctx with
  | zero =>
    have split : splitSelector ctx.data =
        .error (.malformedRequest ("calldata must be at least 4 bytes, got " ++ toString 0)) := by
      rw [data]
      rfl
    unfold planAt
    simp only [split]
    rfl
  | succ inner ih =>
    obtain ⟨levels, rfl⟩ : ∃ outer, levels = outer + 1 := ⟨levels - 1, by omega⟩
    rw [Nat.add_one_mul inner] at short
    have length := Abi.length_sharing count (amplified count inner)
    rw [length_amplified] at length
    have split : splitSelector ctx.data = .ok (Abi.Signature.multicall.selector,
        Abi.sharing count (amplified count inner)) := by
      rw [data, amplified, splitSelector_append]
    have read : Abi.Signature.multicall.decodeInput (Abi.sharing count (amplified count inner)) =
        .ok [.array ((List.replicate count (amplified count inner)).map .bytes)] :=
      Abi.decodeInput_sharing (by omega)
    have plan : t.planAt (levels + 1) ctx = .batch ctx .multicall
        ((List.replicate count (amplified count inner)).map
          fun data => t.planAt levels (ctx.nested data)) :=
      planAt_eq_batch_iff.mpr ⟨rfl, _, _, _, _, levels, split, holds, read, rfl,
        Arguments.bytesArray_map _, rfl⟩
    have slot : (t.planAt levels (ctx.nested (amplified count inner))).subplans.length =
        1 + sumOfPowers count inner := ih (by omega) rfl (by omega)
    rw [plan, List.map_replicate, Plan.subplans, List.length_cons, Plan.length_subplansOf_replicate,
      slot, sumOfPowers, Nat.add_comm]

end Table

/-- Five batches inside each other with four calls each hold more calls than their calldata has bytes. -/
theorem amplified_beyond_length :
    ¬ (Resolver.TwoWrites.resolver.table.dispatched ⟨0xc0, Table.amplified 4 5, none⟩
        Resolver.TwoWrites.vacant).tail.length ≤ (Table.amplified 4 5).length := by
  have calls : (Resolver.TwoWrites.resolver.table.plan
      (.ofCall ⟨0xc0, Table.amplified 4 5, none⟩)).subplans.length = 1 + sumOfPowers 4 5 :=
    Table.subplans_amplified Resolver.TwoWrites.resolver.get?_table_multicall (by decide) rfl (by decide)
  rw [List.length_tail, Table.length_dispatched, calls, Table.length_amplified]
  decide

end OffchainNames
