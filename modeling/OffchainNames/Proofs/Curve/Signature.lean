import OffchainNames.Curve.Signature

/-!
# Signatures as bytes

A signature is read back from its bytes (`Signature.ofBytes_toBytes`).
-/

namespace OffchainNames

namespace Signature

/-- A signature is read back from its bytes. -/
theorem ofBytes_toBytes (sig : Signature) : ofBytes sig.toBytes = .ok sig := by
  obtain ⟨r, s, odd⟩ := sig
  have length : (toBytes ⟨r, s, odd⟩).length = 65 := by simp [toBytes]
  have last : (toBytes ⟨r, s, odd⟩).getLastD 0 = if odd then 28 else 27 := by simp [toBytes]
  have parity : parity? (if odd then 28 else 27) = some odd := by cases odd <;> rfl
  have head : (toBytes ⟨r, s, odd⟩).take 32 = Bytes.ofBits r := by
    rw [toBytes, List.append_assoc, List.take_left' (Bytes.length_ofBits r)]
  have middle : ((toBytes ⟨r, s, odd⟩).drop 32).take 32 = Bytes.ofBits s := by
    rw [toBytes, List.append_assoc, List.drop_left' (Bytes.length_ofBits r),
      List.take_left' (Bytes.length_ofBits s)]
  unfold ofBytes
  simp only [length, last, parity, head, middle, ne_eq, not_true, if_false]
  rw [Bytes.toBits_ofBits (by decide), Bytes.toBits_ofBits (by decide)]

end Signature

end OffchainNames
