import OffchainNames.Proofs.Abi.Calls
import OffchainNames.Proofs.Abi.Types
import OffchainNames.Proofs.Dispatch.Plan
import OffchainNames.Store.Memory

/-!
# Calls reach functions as they were encoded

A table hands a function the very arguments that a call was encoded with, and the caller reads the very
results that the function returned (`Table.dispatch_encodeCall`), if reading can follow the types of both.
Reading counts every list of fixed length and every tuple as a frame, also where nothing of variable
length is inside (`nested_lists_unread`).
-/

namespace OffchainNames

namespace Table

/-- A call that was encoded with arguments is split into the selector and a payload that reads as these
arguments, a table hands them to the function under the selector, and results that the function returns
are answered, with the time that goes with them, as data that reads as these results. -/
theorem dispatch_encodeCall {σ : Type} [Store σ] {t : Table} {signature : Abi.Signature}
    {handler : Handler} {inputs outputs : List Abi.Ty} {args : Arguments}
    (holds : t.get? signature.selector = some ⟨signature, .function handler⟩)
    (reads : Abi.Readable signature.inputs inputs) (returns : Abi.Readable signature.outputs outputs)
    (conform : Abi.Ty.admitsAll inputs args = true) (w : World σ) :
    ∃ data payload, signature.encodeCall args = .ok data ∧
      splitSelector data = .ok (signature.selector, payload) ∧
      (data.length < UInt64.size → signature.decodeInput payload = .ok args) ∧
      ∀ results, Abi.Ty.admitsAll outputs results = true →
        ∃ content, signature.encodeOutput results = .ok content ∧
          (content.length < UInt64.size → signature.decodeOutput content = .ok results) ∧
          (data.length < UInt64.size → ∀ ctx : Context, ctx.data = data →
            t.plan ctx = .invoke ctx signature handler args ∧
            ∀ ttl, ((handler ctx args).run w).1 = .reply ⟨results, ttl⟩ →
              (t.dispatch ctx).run w =
                (.answered (.ok content ttl), ((handler ctx args).run w).2)) := by
  have split := splitSelector_append signature.selector (Abi.encode args)
  have decoded : (Bytes.ofBits signature.selector ++ Abi.encode args).length < UInt64.size →
      signature.decodeInput (Abi.encode args) = .ok args := by
    intro short
    rw [List.length_append] at short
    exact Abi.Signature.decodeInput_encode reads conform (by omega)
  refine ⟨_, _, Abi.Signature.encodeCall_of_admitsAll reads.resolved conform, split, decoded, ?_⟩
  intro results conformOut
  refine ⟨_, Abi.Signature.encodeOutput_of_admitsAll returns.resolved conformOut,
    Abi.Signature.decodeOutput_encode returns conformOut, ?_⟩
  intro short ctx hdata
  have planned : t.plan ctx = .invoke ctx signature handler args := by
    refine planAt_eq_invoke_iff.mpr ⟨rfl, _, _, ?_, holds, decoded short⟩
    rw [hdata]
    exact split
  refine ⟨planned, ?_⟩
  intro ttl replied
  have packed := Abi.Signature.pack_of_admitsAll returns.resolved conformOut
  rw [dispatch, planned, Plan.run_course_invoke, replied]
  simp only [Outcome.ending, packed]

end Table

namespace NestedTuples

/-- The signature of a function from a list of tuples to a list of texts. -/
def signature : Abi.Signature :=
  ⟨"label", [⟨"items", "tuple[]", [⟨"", "bytes", []⟩, ⟨"", "int16[2]", []⟩]⟩],
    [⟨"", "string[]", []⟩], .view⟩

/-- A list of one tuple. -/
def args : Arguments :=
  [.array [.tuple [.bytes [1, 2, 3], .fixedArray [.int 5 16, .int (-1) 16]]]]

/-- A list of two texts. -/
def results : Arguments := [.array [.string "name", .string ""]]

/-- The function, which returns the texts, to be kept for a minute. -/
def handler : Handler := fun _ _ => .done (.reply ⟨results, some 60⟩)

/-- A table with the function. -/
def table : Table := Table.standard.add signature handler

/-- The calldata of a call with the tuple. -/
def data : Bytes := Bytes.ofBits signature.selector ++ Abi.encode args

/-- The context of the call. -/
def context : Context := ⟨0, data, data, none, 0⟩

/-- A world without records. -/
def world : World Memory := { store := Memory.empty, now := 0 }

theorem readable_inputs :
    Abi.Readable signature.inputs [.array (.tuple [.bytes, .fixedArray (.int 16) 2])] where
  resolved := by
    have numbers := Abi.Param.resolve_named "" "int16[2]" "int16" [some 2] (.int 16)
      (Abi.Specifier.parse?_named (by decide) (by decide) (by decide)) rfl
    have elements : Abi.Param.resolveAll [⟨"", "bytes", []⟩, ⟨"", "int16[2]", []⟩] =
        .ok [.bytes, .fixedArray (.int 16) 2] :=
      Abi.Param.resolveAll_eq_ok_iff.mpr (.cons (Abi.Param.resolve_bytes "") (.cons numbers .nil))
    have tuples := Abi.Param.resolve_components "items" "tuple[]" "tuple" [none] _ _ _
      (Abi.Specifier.parse?_named (by decide) (by decide) (by decide)) elements
    exact Abi.Param.resolveAll_eq_ok_iff.mpr (.cons tuples .nil)
  solid := rfl
  frames := by decide

theorem readable_outputs : Abi.Readable signature.outputs [.array .string] where
  resolved := by
    have texts := Abi.Param.resolve_named "" "string[]" "string" [none] .string
      (Abi.Specifier.parse?_named (by decide) (by decide) (by decide)) rfl
    exact Abi.Param.resolveAll_eq_ok_iff.mpr (.cons texts .nil)
  solid := rfl
  frames := by decide

theorem length_data : data.length < UInt64.size := by
  rw [data, List.length_append, Bytes.length_ofBits, Abi.encode, Abi.Part.length_assemble]
  simp [args, Abi.Value.parts, Abi.Value.part, Abi.Part.length_assemble, Abi.Part.size,
    Abi.Part.headSize, Abi.Part.tail, Abi.sized, Abi.wordOf, Bytes.padRight, UInt64.size]

theorem length_content : (Abi.encode results).length < UInt64.size := by
  rw [Abi.encode, Abi.Part.length_assemble]
  simp [results, Abi.Value.parts, Abi.Value.part, Abi.Part.length_assemble, Abi.Part.size,
    Abi.Part.headSize, Abi.Part.tail, Abi.sized, Abi.wordOf, Bytes.padRight, Bytes.ofString,
    Char.utf8Size, UInt64.size]

end NestedTuples

/-- A list of tuples reaches the function, and the list of texts that it returns reaches the caller. -/
theorem nested_tuples_dispatched : ∃ content,
    NestedTuples.signature.encodeCall NestedTuples.args = .ok NestedTuples.data ∧
    NestedTuples.table.plan NestedTuples.context = .invoke NestedTuples.context
      NestedTuples.signature NestedTuples.handler NestedTuples.args ∧
    (NestedTuples.table.dispatch NestedTuples.context).run NestedTuples.world =
      (.answered (.ok content (some 60)), NestedTuples.world) ∧
    NestedTuples.signature.decodeOutput content = .ok NestedTuples.results := by
  have holds : NestedTuples.table.get? NestedTuples.signature.selector =
      some ⟨NestedTuples.signature, .function NestedTuples.handler⟩ := by
    rw [NestedTuples.table, Table.get?_add, if_pos rfl]
  have conform : Abi.Ty.admitsAll [.array (.tuple [.bytes, .fixedArray (.int 16) 2])]
      NestedTuples.args = true := by decide
  have conformOut : Abi.Ty.admitsAll [.array .string] NestedTuples.results = true := by decide
  have encoded := Abi.Signature.encodeCall_of_admitsAll NestedTuples.readable_inputs.resolved conform
  obtain ⟨data, payload, hdata, -, -, answers⟩ := Table.dispatch_encodeCall holds
    NestedTuples.readable_inputs NestedTuples.readable_outputs conform NestedTuples.world
  obtain rfl : data = NestedTuples.data := Except.ok.inj (hdata.symm.trans encoded)
  obtain ⟨content, hcontent, back, dispatched⟩ := answers NestedTuples.results conformOut
  obtain ⟨planned, answered⟩ := dispatched NestedTuples.length_data NestedTuples.context rfl
  have short : content.length < UInt64.size := by
    rw [Abi.Signature.encodeOutput_of_admitsAll NestedTuples.readable_outputs.resolved
      conformOut] at hcontent
    rw [← Except.ok.inj hcontent]
    exact NestedTuples.length_content
  exact ⟨content, encoded, planned, answered (some 60) rfl, back short⟩

namespace NestedLists

/-- A parameter that is a list of one list of one list and so on, 17 lists inside each other, with a
number inside. -/
def param : Abi.Param := ⟨"x", "uint8[1][1][1][1][1][1][1][1][1][1][1][1][1][1][1][1][1]", []⟩

/-- The signature of a function with this parameter. -/
def signature : Abi.Signature := ⟨"f", [param], [], .nonpayable⟩

/-- The type of lists of one element, as many inside each other as given, with a number inside. -/
def type : (lists : Nat) → Abi.Ty
  | 0 => .uint 8
  | lists + 1 => .fixedArray (type lists) 1

/-- Lists of one element, as many inside each other as given, with a number inside. -/
def value : (lists : Nat) → Abi.Value
  | 0 => .uint 7 8
  | lists + 1 => .fixedArray [value lists]

/-- The word of the number. -/
def payload : Bytes := Bytes.ofBits (7 : Word)

theorem resolve_param : param.resolve = .ok (type 17) :=
  Abi.Param.resolve_named "x" param.type "uint8" (List.replicate 17 (some 1)) (.uint 8)
    (Abi.Specifier.parse?_named (by decide) (by decide) (by decide)) rfl

end NestedLists

/-- The bound on frames counts lists of fixed length as well: nothing in this type is of variable
length, and still the encoding of its value does not read. -/
theorem nested_lists_unread :
    Abi.Param.resolveAll NestedLists.signature.inputs = .ok [NestedLists.type 17] ∧
    Abi.Ty.allInhabited [NestedLists.type 17] = true ∧
    Abi.Ty.anyTailed [NestedLists.type 17] = false ∧
    Abi.Ty.admitsAll [NestedLists.type 17] [NestedLists.value 17] = true ∧
    NestedLists.signature.encodeCall [NestedLists.value 17] =
      .ok (Bytes.ofBits NestedLists.signature.selector ++ NestedLists.payload) ∧
    splitSelector (Bytes.ofBits NestedLists.signature.selector ++ NestedLists.payload) =
      .ok (NestedLists.signature.selector, NestedLists.payload) ∧
    NestedLists.signature.decodeInput NestedLists.payload = .error (.malformedRequest
      ("cannot decode " ++ NestedLists.signature.canonical ++ ": "
        ++ Abi.DecodeError.tooDeep.message)) := by
  have resolved : Abi.Param.resolveAll NestedLists.signature.inputs = .ok [NestedLists.type 17] :=
    Abi.Param.resolveAll_eq_ok_iff.mpr (.cons NestedLists.resolve_param .nil)
  have admits : Abi.Ty.admitsAll [NestedLists.type 17] [NestedLists.value 17] = true := by decide
  have encoded : Abi.encode [NestedLists.value 17] = NestedLists.payload := by decide
  have deep : (NestedLists.type 17).decode (Abi.Cursor.start NestedLists.payload) =
      .error .tooDeep := by rfl
  have unread : Abi.decodeFor NestedLists.signature.inputs NestedLists.payload =
      .error (.data .tooDeep) := by
    rw [NestedLists.signature, Abi.decodeFor, Abi.readAll, NestedLists.resolve_param]
    simp only [deep]
  refine ⟨resolved, by decide, by decide, admits, ?_, splitSelector_append .., ?_⟩
  · rw [Abi.Signature.encodeCall_of_admitsAll resolved admits, encoded]
  · rw [Abi.Signature.decodeInput, unread]
    rfl

end OffchainNames
