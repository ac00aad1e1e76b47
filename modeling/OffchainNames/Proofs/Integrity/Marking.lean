import OffchainNames.Integrity
import OffchainNames.Proofs.Store.Memory

/-!
# What the marking does to the store in memory

After a successful response the record of the node that was found, if it has one, is marked
(`Memory.mark`): the marker becomes the fingerprint and nothing else changes. The stage always hands on
a response, and one that is successful iff the one that it was given is (`Integrity.run_process`).
-/

namespace OffchainNames

/-- The record with its fingerprint as the marker. -/
def Record.marked (r : Record) : Record := { r with marker := some r.fingerprint }

/-- The marker of a marked record is its own fingerprint. -/
theorem Record.marker_marked (r : Record) : r.marked.marker = some r.marked.fingerprint := rfl

namespace Memory

/-- The store in which the record of a node, if it has one, is marked. -/
def mark (m : Memory) (node : Word) : Memory :=
  match m.records[node]? with
  | some record => m.put node record.marked
  | none => m

theorem getElem?_mark (m : Memory) (node n : Word) : (m.mark node).records[n]? =
    if n = node then m.records[n]?.map Record.marked else m.records[n]? := by
  unfold mark
  cases hrecord : m.records[node]? with
  | none =>
    by_cases h : n = node
    · rw [if_pos h, h, hrecord, Option.map_none]
    · rw [if_neg h]
  | some record =>
    by_cases h : n = node
    · rw [if_pos h, h, hrecord]
      exact getElem?_put_self ..
    · rw [if_neg h]
      exact (getElem?_put ..).trans (if_neg h)

/-- Marking changes no contents. -/
@[simp] theorem content_mark (m : Memory) (node n : Word) :
    (m.mark node).content n = m.content n := by
  rw [content, content, getElem?_mark]
  split
  · cases m.records[n]? <;> rfl
  · rfl

/-- The marker that is stored for a node. -/
def marker (m : Memory) (node : Word) : Option Word := m.records[node]?.bind Record.marker

theorem marker_mark (m : Memory) (node n : Word) : (m.mark node).marker n =
    if n = node then m.records[n]?.map Record.fingerprint else m.marker n := by
  rw [marker, getElem?_mark]
  by_cases h : n = node
  · rw [if_pos h, if_pos h]
    cases m.records[n]? <;> rfl
  · rw [if_neg h, if_neg h, marker]

/-- Marking moves the marker of a node iff it is this node, and it has a record whose marker is another
one than the fingerprint. -/
theorem marker_mark_ne_iff {m : Memory} {node n : Word} : (m.mark node).marker n ≠ m.marker n ↔
    node = n ∧ ∃ record, m.records[n]? = some record ∧ record.marker ≠ some record.fingerprint := by
  rw [marker_mark]
  by_cases h : n = node
  · rw [if_pos h, marker]
    cases hrecord : m.records[n]? with
    | none => simp
    | some record => simp [h, eq_comm]
  · simp [if_neg h, Ne.symm h]

end Memory

namespace Integrity

@[simp] theorem isSuccess_respond (i : Integrity) (call : Call) {response : Response}
    (h : response.isSuccess = true) (node marker : Word) :
    (i.respond call response node marker).isSuccess = true := by
  unfold respond
  split
  · rfl
  · exact h

/-- The node whose record is marked after a response. -/
def target? (i : Integrity) (call : Call) (response : Response) : Option Word :=
  if response.isSuccess then i.affected call.data else none

/-- The store after the marking. -/
def settle (i : Integrity) (call : Call) (response : Response) (m : Memory) : Memory :=
  match i.target? call response with
  | some node => m.mark node
  | none => m

/-- The stage changes no contents. -/
@[simp] theorem content_settle (i : Integrity) (call : Call) (response : Response) (m : Memory)
    (n : Word) : (i.settle call response m).content n = m.content n := by
  unfold settle
  split
  · exact m.content_mark _ n
  · rfl

/-- The stage moves the marker of a node iff this is the node that it marks, and it has a record whose
marker is another one than the fingerprint. -/
theorem marker_settle_ne_iff {i : Integrity} {call : Call} {response : Response} {m : Memory}
    {n : Word} : (i.settle call response m).marker n ≠ m.marker n ↔
      i.target? call response = some n ∧
        ∃ record, m.records[n]? = some record ∧ record.marker ≠ some record.fingerprint := by
  unfold settle
  cases htarget : i.target? call response with
  | none => simp
  | some node => simpa using Memory.marker_mark_ne_iff

section Store

variable {σ : Type} [Store σ]

theorem run_stage (i : Integrity) (call : Call) (response : Response) (w : World σ) :
    (i.stage.process call response).run w =
      (.answered ((i.process call response).run w).1, ((i.process call response).run w).2) := by
  rw [stage, Course.run_bind]
  rfl

/-- In any store a successful response is handed on as a successful one, unless the store fails. -/
theorem run_process_of_success (i : Integrity) (call : Call) {response : Response} (w : World σ)
    (h : response.isSuccess = true) :
    (∃ handedOn : Response, ∃ w', handedOn.isSuccess = true ∧
      (i.process call response).run w = (.ok handedOn, w')) ∨
    ∃ detail w', (i.process call response).run w = (.error (.signing detail), w') := by
  rw [process, if_pos h]
  cases i.affected call.data with
  | none => exact .inl ⟨response, w, h, rfl⟩
  | some node =>
    simp only [mark, Course.run]
    cases Store.domain w.store node with
    | error cause => exact .inr ⟨_, _, rfl⟩
    | ok record =>
      cases record with
      | none => exact .inl ⟨response, w, h, rfl⟩
      | some record =>
        simp only [Course.run]
        cases (w.apply (.setMarker node record.fingerprint)).1 with
        | ok made => exact .inl ⟨_, _, isSuccess_respond i call h _ _, rfl⟩
        | error cause => exact .inr ⟨_, _, rfl⟩

/-- A response that is no success is handed on as it is. -/
theorem run_process_of_not_success (i : Integrity) (call : Call) {response : Response}
    (w : World σ) (h : response.isSuccess = false) :
    (i.process call response).run w = (.ok response, w) := by
  rw [process, h]
  rfl

end Store

/-- Marking a record that is there succeeds. -/
theorem run_mark (i : Integrity) (call : Call) {response : Response} (node : Word) (w : World Memory)
    (h : response.isSuccess = true) : ∃ handedOn : Response, handedOn.isSuccess = true ∧
      (i.mark call response node).run w = (.ok handedOn, { w with store := w.store.mark node }) := by
  have found : Store.domain w.store node = .ok w.store.records[node]? := rfl
  simp only [mark, Course.run, found]
  unfold Memory.mark
  cases hrecord : w.store.records[node]? with
  | none => exact ⟨response, h, rfl⟩
  | some record =>
    have stored : Store.apply (.setMarker node record.fingerprint) w.store =
        (.ok (), w.store.put node record.marked) := by
      rw [Memory.apply_eq]
      simp only [Memory.refusal?, hrecord, Option.isSome_some, if_true, Change.node, Memory.getD,
        Option.getD_some]
      rfl
    refine ⟨i.respond call response node record.fingerprint, isSuccess_respond i call h _ _, ?_⟩
    simp only [Course.run, World.apply, stored]

/-- The stage always hands on a response, which is successful iff the one that it was given is. -/
theorem run_process (i : Integrity) (call : Call) (response : Response) (w : World Memory) :
    ∃ handedOn : Response, handedOn.isSuccess = response.isSuccess ∧
      (i.process call response).run w =
        (.ok handedOn, { w with store := i.settle call response w.store }) := by
  unfold process settle target?
  by_cases hsuccess : response.isSuccess = true
  · rw [if_pos hsuccess, if_pos hsuccess]
    cases haffected : i.affected call.data with
    | none => exact ⟨response, rfl, rfl⟩
    | some node =>
      obtain ⟨handedOn, h, hrun⟩ := i.run_mark call node w hsuccess
      exact ⟨handedOn, h.trans hsuccess.symm, hrun⟩
  · rw [if_neg hsuccess, if_neg hsuccess]
    exact ⟨response, rfl, rfl⟩

end Integrity

end OffchainNames
