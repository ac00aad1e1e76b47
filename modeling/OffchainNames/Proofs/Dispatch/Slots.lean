import OffchainNames.Proofs.Dispatch.Fold

/-!
# Slots tell failure from success

The report of an error is read back (`decodeErrorPayload?_errorPayload`). Nothing marks the data of a success
in a slot, but what starts with a small word starts with zeros (`Abi.take_wordOf`) and is no such report: so
it is with every encoding of one value that goes among the tails (`Abi.take_encode_of_tailed`), and with that
of an address. A response that is either of this kind or no success is told by its slot
(`Response.Told.decode_slot`).
-/

namespace OffchainNames

namespace Bytes

theorem ofNat_add (width low value : Nat) :
    ofNat (width + low) value = ofNat width (value / Nat.pow 256 low) ++ ofNat low value := by
  induction low generalizing value with
  | zero => simp [ofNat]
  | succ low ih =>
    have shifted : value / 256 / Nat.pow 256 low = value / Nat.pow 256 (low + 1) := by
      rw [Nat.div_div_eq_div_mul, Nat.mul_comm]
      rfl
    rw [← Nat.add_assoc, ofNat, ih, ofNat, shifted, List.append_assoc]

end Bytes

namespace Abi

/-- A word of a number below `2 ^ 224` starts with zeros. -/
theorem take_wordOf {n : Nat} (small : n < Nat.pow 256 28) (after : Bytes) :
    (wordOf n ++ after).take 4 = [0, 0, 0, 0] := by
  have high : n / Nat.pow 256 28 = 0 := Nat.div_eq_of_lt small
  have split : wordOf n = [0, 0, 0, 0] ++ Bytes.ofNat 28 n := by
    rw [wordOf, Bytes.ofNat_add 4 28, high]
    rfl
  rw [split, List.append_assoc]
  rfl

/-- One value that goes among the tails stands after its distance. -/
theorem encode_of_tailed {value : Value} (tailed : value.part.tailed = true) :
    encode [value] = wordOf 32 ++ value.part.body := by
  simp [encode, Value.parts, Part.assemble, Part.heads, Part.tails, Part.headsSize, Part.headSize,
    tailed]

theorem take_encode_of_tailed {value : Value} (tailed : value.part.tailed = true) :
    (encode [value]).take 4 = [0, 0, 0, 0] := by
  rw [encode_of_tailed tailed]
  exact take_wordOf (by decide) _

theorem take_encode_address (a : Address) : (encode [.address a]).take 4 = [0, 0, 0, 0] := by
  have alone : encode [.address a] = wordOf a.toNat := by
    simp [encode, Value.parts, Value.part, Part.assemble, Part.heads, Part.tails]
  have small : a.toNat < Nat.pow 256 28 := Nat.lt_trans a.isLt (by decide)
  rw [alone, ← List.append_nil (wordOf a.toNat)]
  exact take_wordOf small []

/-- A text is read back from the encoding of it alone. -/
theorem decode_encode_string {text : String} (short : (Bytes.ofString text).length < UInt64.size) :
    decode [.string] (encode [.string text]) = .ok [.string text] := by
  obtain ⟨body, hbody⟩ : ∃ body, body = wordOf (Bytes.ofString text).length ++
      (Bytes.ofString text ++ List.replicate ((32 - (Bytes.ofString text).length % 32) % 32) 0) :=
    ⟨_, rfl⟩
  have alone : encode [.string text] = wordOf 32 ++ body := by
    rw [encode_of_tailed rfl, hbody]
    rfl
  have dropped : (encode [.string text]).drop 32 = body := by
    rw [alone]
    exact List.drop_left' (Bytes.length_ofNat 32 32)
  have inside : 32 ≤ (encode [.string text]).length := by
    rw [alone, List.length_append, wordOf, Bytes.length_ofNat]
    omega
  have follow := @Cursor.follow_of_inside (encode [.string text]) 0 32 (by decide) inside (by decide) body
  rw [dropped, ← alone, hbody] at follow
  have read := Cursor.sized_of_follow short follow
  rw [decode, Cursor.start, Ty.decodeAll, Ty.decode, read]
  simp only [Except.ok_bind, Utf8.decodeLossy_ofString]
  rfl

end Abi

/-- The report of an error is read back. -/
theorem decodeErrorPayload?_errorPayload {text : String}
    (short : (Bytes.ofString text).length < UInt64.size) :
    decodeErrorPayload? (errorPayload text) = some text := by
  have selected : (errorPayload text).take 4 = errorSelector := List.take_left' rfl
  have rest : (errorPayload text).drop 4 = Abi.encode [.string text] := List.drop_left' rfl
  rw [decodeErrorPayload?, if_pos selected, rest, Abi.decode_encode_string short]

/-- What does not start with the selector of a report is no report. -/
theorem decodeErrorPayload?_of_take {data : Bytes} (h : data.take 4 ≠ errorSelector) :
    decodeErrorPayload? data = none := if_neg h

/-- A text is no longer than the report of it. -/
theorem length_le_errorPayload (text : String) :
    (Bytes.ofString text).length ≤ (errorPayload text).length := by
  have padded := (Bytes.ofString text).length_le_padRight
  rw [errorPayload, Abi.encode_of_tailed rfl, List.length_append, List.length_append]
  show _ ≤ _ + (_ + (Abi.sized (Bytes.ofString text)).length)
  rw [Abi.sized, List.length_append]
  omega

/-- A response is no success, or it has data that is no report of an error. -/
inductive Response.Told : Response → Prop where
  | ok {data : Bytes} (ttl : Option UInt64) (plain : data.take 4 ≠ errorSelector) : Told (.ok data ttl)
  | ofError {e : Error} (failed : e.status ≠ 200) : Told (.ofError e)

/-- The slot of such a response tells whether it is a success, and the message if it is none. -/
theorem Response.Told.decode_slot {response : Response} (told : response.Told)
    (short : response.slot.length < UInt64.size) :
    (∀ text, decodeErrorPayload? response.slot = some text ↔
      response.status ≠ 200 ∧ response.message? = some text) ∧
    (decodeErrorPayload? response.slot = none ↔ response.status = 200) := by
  cases told with
  | @ok data ttl plain =>
    have slot : (Response.ok data ttl).slot = data := Response.slot_of_success rfl
    rw [slot, decodeErrorPayload?_of_take plain]
    refine ⟨fun text => ?_, iff_of_true rfl rfl⟩
    exact iff_of_false nofun fun failed => failed.1 rfl
  | @ofError e failed =>
    have slot : (Response.ofError e).slot = errorPayload e.message :=
      Response.slot_of_message failed rfl
    rw [slot] at short ⊢
    rw [decodeErrorPayload?_errorPayload
      (Nat.lt_of_le_of_lt (length_le_errorPayload e.message) short)]
    refine ⟨fun text => ?_, iff_of_false nofun failed⟩
    exact ⟨fun same => ⟨failed, same⟩, fun told => told.2⟩

end OffchainNames
