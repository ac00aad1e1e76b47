import OffchainNames.Proofs.Text.Utf8
import OffchainNames.Settings.Issue

/-!
# Keys as text

A text is accepted as that of a key if it has 64 hexadecimal digits, and a signer is made of the bytes that
these digits spell. So whether there is a signer depends on the number alone that the digits write: it has
to be a secret scalar of the curve (`Signer.ofHex_of_isKeyText`).
-/

namespace OffchainNames

namespace Net

theorem lt_of_digitBelow? {base d : Nat} {c : Char} (h : digitBelow? base c = some d) : d < base := by
  simp only [digitBelow?, Option.filter_eq_some_iff, decide_eq_true_eq] at h
  exact h.2

/-- A digit is written with one byte, which has the value of the digit. -/
theorem utf8EncodeChar_of_digitBelow? {c : Char} {d : Nat} (h : digitBelow? 16 c = some d) :
    String.utf8EncodeChar c = [UInt8.ofNat c.toNat] ∧ Hex.value? (UInt8.ofNat c.toNat) = some d := by
  rcases Nat.lt_or_ge c.toNat 128 with plain | far
  · have ascii := Utf8.forall_ascii (P := fun c => ∀ d < 16, digitBelow? 16 c = some d →
      String.utf8EncodeChar c = [UInt8.ofNat c.toNat] ∧
        Hex.value? (UInt8.ofNat c.toNat) = some d) (by decide) plain
    exact ascii d (lt_of_digitBelow? h) h
  · have none : Numeral.digit? c = none := by
      simp only [Numeral.digit?]
      rw [if_neg (by omega), if_neg (by omega), if_neg (by omega)]
    simp [digitBelow?, none] at h

section Digits

variable {cs : List Char}

/-- Characters that are all digits are read to their end. -/
theorem digits_of_all {base : Nat} (all : ∀ c ∈ cs, (digitBelow? base c).isSome = true) :
    digits base cs = (cs.filterMap (digitBelow? base), []) := by
  induction cs with
  | nil => rfl
  | cons c rest ih =>
    obtain ⟨d, value⟩ := Option.isSome_iff_exists.mp (all c (List.mem_cons_self ..))
    rw [digits, value, ih fun c member => all c (List.mem_cons_of_mem _ member),
      List.filterMap_cons_some value]

theorem flatMap_of_digits (all : ∀ c ∈ cs, (digitBelow? 16 c).isSome = true) :
    cs.flatMap String.utf8EncodeChar = cs.map fun c => UInt8.ofNat c.toNat := by
  induction cs with
  | nil => rfl
  | cons c rest ih =>
    obtain ⟨d, value⟩ := Option.isSome_iff_exists.mp (all c (List.mem_cons_self ..))
    rw [List.flatMap_cons, (utf8EncodeChar_of_digitBelow? value).1,
      ih fun c member => all c (List.mem_cons_of_mem _ member)]
    rfl

end Digits

end Net

namespace Hex

theorem unmarked_of_digits {text : Bytes} (all : ∀ b ∈ text, (value? b).isSome = true) :
    unmarked text = text := by
  unfold unmarked
  split
  · have digit := all 120 (by simp)
    simp [value?] at digit
  · have digit := all 88 (by simp)
    simp [value?] at digit
  · rfl

/-- Pairs of digits are read as bytes that make the number the digits write, after what is there already. -/
theorem decodePairs_of_digits (position start : Nat) {cs : List Char}
    (all : ∀ c ∈ cs, (Net.digitBelow? 16 c).isSome = true) (even : cs.length % 2 = 0) :
    ∃ bytes, decodePairs position (cs.flatMap String.utf8EncodeChar) = .ok bytes ∧
      bytes.foldl (fun n b => n * 256 + b.toNat) start =
        (cs.filterMap (Net.digitBelow? 16)).foldl (fun n d => n * 16 + d) start := by
  -- The reader takes two digits at a time, and so does the proof.
  match cs with
  | [] => exact ⟨[], rfl, rfl⟩
  | [_] => simp at even
  | c :: c' :: rest =>
    obtain ⟨high, hhigh⟩ := Option.isSome_iff_exists.mp (all c (by simp))
    obtain ⟨low, hlow⟩ := Option.isSome_iff_exists.mp (all c' (by simp))
    obtain ⟨text, value⟩ := Net.utf8EncodeChar_of_digitBelow? hhigh
    obtain ⟨text', value'⟩ := Net.utf8EncodeChar_of_digitBelow? hlow
    have small := Net.lt_of_digitBelow? hhigh
    have small' := Net.lt_of_digitBelow? hlow
    have shorter : rest.length % 2 = 0 := by
      simp only [List.length_cons] at even
      omega
    obtain ⟨bytes, read, number⟩ := decodePairs_of_digits (position + 2)
      ((start * 16 + high) * 16 + low) (fun c member => all c (by simp [member])) shorter
    refine ⟨UInt8.ofNat (high * 16 + low) :: bytes, ?_, ?_⟩
    · rw [List.flatMap_cons, List.flatMap_cons, text, text']
      simp only [List.cons_append, List.nil_append, decodePairs, value, value', read]
      rfl
    · have byte : (UInt8.ofNat (high * 16 + low)).toNat = high * 16 + low :=
        Utf8.toNat_ofNat_of_lt (by omega)
      have sum : start * 256 + (high * 16 + low) = (start * 16 + high) * 16 + low := by omega
      rw [List.filterMap_cons_some hhigh, List.filterMap_cons_some hlow, List.foldl_cons, byte, sum,
        number, List.foldl_cons, List.foldl_cons]
termination_by cs.length

end Hex

namespace Signer

/-- The number that the digits of a key text write. -/
def keyNumber (text : String) : Nat := Net.ofDigits 16 (Net.digits 16 (unmarked text).toList).1

example : keyNumber "0x00ff" = 255 := by decide

theorem decodeExact_of_isKeyText {text : String} (written : isKeyText text = true) :
    ∃ bytes, Hex.decodeExact 32 (unmarked text) = .ok bytes ∧ Bytes.toNat bytes = keyNumber text := by
  simp only [isKeyText, Bool.and_eq_true, beq_iff_eq, List.all_eq_true] at written
  obtain ⟨length, all⟩ := written
  have plain : Hex.unmarked (Bytes.ofString (unmarked text)) = Bytes.ofString (unmarked text) := by
    refine Hex.unmarked_of_digits fun b member => ?_
    rw [Bytes.ofString, Net.flatMap_of_digits all] at member
    obtain ⟨c, place, rfl⟩ := List.mem_map.mp member
    obtain ⟨d, digit⟩ := Option.isSome_iff_exists.mp (all c place)
    rw [(Net.utf8EncodeChar_of_digitBelow? digit).2]
    rfl
  have size : (Bytes.ofString (unmarked text)).length = 64 := by
    rw [Bytes.ofString, Net.flatMap_of_digits all, List.length_map, length]
  obtain ⟨bytes, read, number⟩ := Hex.decodePairs_of_digits 0 0 all (by rw [length])
  refine ⟨bytes, ?_, ?_⟩
  · simp only [Hex.decodeExact, plain, size]
    exact read
  · rw [Bytes.toNat, number, keyNumber, Net.digits_of_all all, Net.ofDigits]

/-- A key text gives a signer exactly if its number is a secret scalar of the curve. -/
theorem ofHex_of_isKeyText {text : String} (written : isKeyText text = true) (defaultTtl : UInt64) :
    ofHex text defaultTtl =
      match SecretKey.ofNat? (keyNumber text) with
      | some key => .ok ⟨key, defaultTtl⟩
      | none => .error (.signing "invalid private key: signature error") := by
  obtain ⟨bytes, read, number⟩ := decodeExact_of_isKeyText written
  simp only [ofHex, read, number]
  rfl

end Signer

end OffchainNames
