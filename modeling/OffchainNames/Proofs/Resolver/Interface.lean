import OffchainNames.Proofs.Dispatch.Table
import OffchainNames.Resolver

/-!
# The interface of the resolver

The selectors of the ten functions and of the batch, which all differ (`Operation.selector_injective`),
so that the table of a resolver holds each function under its own selector and nothing else
(`Resolver.get?_table_eq_some_iff`). The functions that write are the ones that are tracked.
-/

namespace OffchainNames

namespace Operation

/-- The selectors of the functions. -/
def selector : Operation → Selector
  | text => 0x59d1d43c
  | setText => 0x10f13a8c
  | addr => 0x3b3b57de
  | addrCoin => 0xf1cb7e06
  | setAddr => 0xd5fa2b00
  | setAddrCoin => 0x8b95dd71
  | contenthash => 0xbc1c58d1
  | setContenthash => 0x304e6ade
  | register => 0xb2c20f4e
  | transfer => 0x79ce9fac

@[simp] theorem selector_signature (op : Operation) : op.signature.selector = op.selector := by
  cases op
  all_goals
    refine Abi.Signature.selector_eq (by conv => lhs; cbv) ?_
    decide +kernel

theorem selector_injective {a b : Operation} (h : a.selector = b.selector) : a = b := by
  cases a <;> cases b <;> first | rfl | exact absurd h (by decide)

theorem selector_ne_multicall (op : Operation) :
    op.selector ≠ Abi.Signature.multicall.selector := by
  rw [Abi.Signature.selector_multicall]
  cases op <;> decide

/-- Whether a function writes. -/
def writes : Operation → Bool
  | setText | setAddr | setAddrCoin | setContenthash | register | transfer => true
  | text | addr | addrCoin | contenthash => false

/-- What is tracked are the functions that write. -/
theorem mem_tracked_iff {selector : Selector} : selector ∈ Integrity.resolver.tracked ↔
    ∃ op : Operation, op.writes = true ∧ op.selector = selector := by
  constructor
  · intro h
    obtain ⟨op, member, rfl⟩ := List.mem_map.mp h
    refine ⟨op, ?_, (selector_signature op).symm⟩
    revert member
    cases op <;> decide
  · rintro ⟨op, writes, rfl⟩
    refine List.mem_map.mpr ⟨op, ?_, selector_signature op⟩
    revert writes
    cases op <;> decide

/-- What answers with the node and the marker are a registration and a transfer. -/
theorem mem_embedded_iff {op : Operation} : op.selector ∈ Integrity.resolver.embedded ↔
    op = .register ∨ op = .transfer := by
  constructor
  · intro h
    obtain ⟨op', member, same⟩ := List.mem_map.mp h
    rw [selector_signature] at same
    obtain rfl := selector_injective same
    simpa using member
  · rintro (rfl | rfl)
    · exact List.mem_map.mpr ⟨.register, by simp, selector_signature _⟩
    · exact List.mem_map.mpr ⟨.transfer, by simp, selector_signature _⟩

/-- The batch does not answer with a node and a marker. -/
theorem multicall_not_embedded :
    Abi.Signature.multicall.selector ∉ Integrity.resolver.embedded := by
  intro h
  obtain ⟨op, -, same⟩ := List.mem_map.mp h
  rw [selector_signature] at same
  exact op.selector_ne_multicall same

/-- The first parameter of every function is the node. -/
theorem inputs_signature (op : Operation) : ∃ rest, op.signature.inputs = node :: rest := by
  cases op <;> exact ⟨_, rfl⟩

end Operation

namespace Resolver

/-- What a selector names after functions were added: the function among them that has it, or else what
it named before. -/
theorem get?_foldl_add (r : Resolver) (ops : List Operation) (t : Table) (op : Operation) :
    (ops.foldl (fun t op => t.add op.signature (r.handler op)) t).get? op.selector =
      if op ∈ ops then some ⟨op.signature, .function (r.handler op)⟩
      else t.get? op.selector := by
  induction ops generalizing t with
  | nil => simp
  | cons first rest ih =>
    rw [List.foldl_cons, ih, Table.get?_add, Operation.selector_signature]
    by_cases hrest : op ∈ rest
    · simp [hrest]
    · by_cases hfirst : op = first
      · subst hfirst
        simp [hrest]
      · have hne : op.selector ≠ first.selector := fun h => hfirst (Operation.selector_injective h)
        simp [hrest, hfirst, hne]

/-- Another selector names what it named before. -/
theorem get?_foldl_add_of_ne (r : Resolver) (ops : List Operation) (t : Table) {selector : Selector}
    (h : ∀ op : Operation, selector ≠ op.selector) :
    (ops.foldl (fun t op => t.add op.signature (r.handler op)) t).get? selector =
      t.get? selector := by
  induction ops generalizing t with
  | nil => rfl
  | cons first rest ih =>
    rw [List.foldl_cons, ih, Table.get?_add, Operation.selector_signature, if_neg (h first)]

/-- The table of a resolver is built by adding its functions to the batch. -/
theorem built_table (r : Resolver) : r.table.Built := by
  have foldl : ∀ (ops : List Operation) (t : Table), t.Built →
      (ops.foldl (fun t op => t.add op.signature (r.handler op)) t).Built := by
    intro ops
    induction ops with
    | nil => exact fun t built => built
    | cons first rest ih => exact fun t built => ih _ (built.add _ _)
  exact foldl Operation.all Table.standard .standard

theorem get?_table_operation (r : Resolver) (op : Operation) :
    r.table.get? op.selector = some ⟨op.signature, .function (r.handler op)⟩ := by
  have all : op ∈ Operation.all := by cases op <;> decide
  rw [table, install, get?_foldl_add, if_pos all]

theorem get?_table_multicall (r : Resolver) :
    r.table.get? Abi.Signature.multicall.selector = some ⟨.multicall, .batch⟩ := by
  rw [table, install, get?_foldl_add_of_ne _ _ _ fun op => op.selector_ne_multicall.symm,
    Table.get?_standard, if_pos rfl]

/-- The table of a resolver holds the batch and its functions, and nothing else. -/
theorem get?_table_eq_some_iff {r : Resolver} {selector : Selector} {entry : Entry} :
    r.table.get? selector = some entry ↔
      (selector = Abi.Signature.multicall.selector ∧ entry = ⟨.multicall, .batch⟩) ∨
      ∃ op : Operation, selector = op.selector ∧
        entry = ⟨op.signature, .function (r.handler op)⟩ := by
  constructor
  · intro h
    by_cases hop : ∃ op : Operation, selector = op.selector
    · obtain ⟨op, rfl⟩ := hop
      rw [get?_table_operation] at h
      exact .inr ⟨op, rfl, (Option.some.inj h).symm⟩
    · rw [table, install, get?_foldl_add_of_ne _ _ _ (not_exists.mp hop), Table.get?_standard] at h
      split at h
      · rename_i hselector
        exact .inl ⟨hselector, (Option.some.inj h).symm⟩
      · cases h
  · rintro (⟨rfl, rfl⟩ | ⟨op, rfl, rfl⟩)
    · exact r.get?_table_multicall
    · exact r.get?_table_operation op

end Resolver

end OffchainNames
