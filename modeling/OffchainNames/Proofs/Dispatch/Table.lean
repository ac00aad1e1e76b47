import OffchainNames.Table

/-!
# Entries of a table

What a table answers for a selector after an entry was added, and which tables there are at all: those
that start empty or with the batch and to which functions are added (`Table.Built`). In each of them the
batch stands under its own signature only.
-/

namespace OffchainNames

/-- The selector of a signature, from the bytes of its canonical text. -/
theorem Abi.Signature.selector_eq {signature : Signature} {text : Bytes} {selector : Selector}
    (canonical : Bytes.ofString signature.canonical = text)
    (digest : Bytes.toBits 32 ((Keccak.digest text).take 4) = selector) :
    signature.selector = selector := by
  rw [Signature.selector, canonical, digest]

theorem Abi.Signature.selector_multicall : Signature.multicall.selector = 0xac9650d8 := by
  refine selector_eq (by conv => lhs; cbv) ?_
  decide +kernel

namespace Table

@[simp] theorem get?_empty (selector : Selector) : empty.get? selector = none := by
  simp [get?, empty]

theorem get?_insert (t : Table) (entry : Entry) (selector : Selector) :
    (t.insert entry).get? selector =
      if selector = entry.signature.selector then some entry else t.get? selector := by
  unfold get? insert
  exact SortedMap.getElem?_insert ..

theorem get?_add (t : Table) (signature : Abi.Signature) (handler : Handler) (selector : Selector) :
    (t.add signature handler).get? selector =
      if selector = signature.selector then some ⟨signature, .function handler⟩
      else t.get? selector :=
  get?_insert t _ selector

theorem get?_standard (selector : Selector) : standard.get? selector =
    if selector = Abi.Signature.multicall.selector then some ⟨.multicall, .batch⟩ else none := by
  rw [standard, get?_insert, get?_empty]

/-- The tables that registration leads to. -/
inductive Built : Table → Prop where
  | empty : Built Table.empty
  | standard : Built Table.standard
  | add {t : Table} (built : Built t) (signature : Abi.Signature) (handler : Handler) :
    Built (t.add signature handler)

/-- A batch of calls stands under its own signature only. -/
theorem Built.of_batch {t : Table} (built : t.Built) {selector : Selector}
    {signature : Abi.Signature} (h : t.get? selector = some ⟨signature, .batch⟩) :
    selector = Abi.Signature.multicall.selector ∧ signature = .multicall := by
  induction built with
  | empty => simp at h
  | standard =>
    rw [get?_standard] at h
    split at h
    · rename_i hselector
      cases h
      exact ⟨hselector, rfl⟩
    · cases h
  | add built signature' handler ih =>
    rw [get?_add] at h
    split at h
    · cases h
    · exact ih h

end Table

end OffchainNames
