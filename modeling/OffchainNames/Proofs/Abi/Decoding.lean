import OffchainNames.Calldata

/-!
# Decoding step by step

What it means that a sequence of values decodes: each step of the reading succeeds. A word reads iff 32
bytes are left (`Cursor.word_eq_ok_iff`), and values read for parameters iff the first one does and the
others do where it ended (`readAll_cons_eq_ok_iff`).
-/

namespace OffchainNames

instance Except.instDecidableEq {ε α : Type} [DecidableEq ε] [DecidableEq α] :
    DecidableEq (Except ε α)
  | .error e, .error e' => decidable_of_iff (e = e') ⟨congrArg _, Except.error.inj⟩
  | .ok a, .ok a' => decidable_of_iff (a = a') ⟨congrArg _, Except.ok.inj⟩
  | .error _, .ok _ => .isFalse (by intro h; cases h)
  | .ok _, .error _ => .isFalse (by intro h; cases h)

theorem Except.ok_bind {ε α β : Type} (a : α) (f : α → Except ε β) :
    (Except.ok a >>= f) = f a := rfl

theorem Except.bind_eq_ok_iff {ε α β : Type} {x : Except ε α} {f : α → Except ε β} {b : β} :
    x >>= f = .ok b ↔ ∃ a, x = .ok a ∧ f a = .ok b := by
  constructor
  · intro h
    cases x with
    | error e => cases h
    | ok a => exact ⟨a, rfl, h⟩
  · rintro ⟨a, rfl, h⟩
    exact h

theorem Except.map_eq_ok_iff {ε α β : Type} {x : Except ε α} {f : α → β} {b : β} :
    x.map f = .ok b ↔ ∃ a, x = .ok a ∧ f a = b := by
  cases x with
  | error e => simp [Except.map]
  | ok a => simp [Except.map]

/-- Values that are read back from what they are written as are written differently. -/
theorem Except.write_inj {ε α β : Type} {write : α → β} {read : β → Except ε α}
    (back : ∀ a, read (write a) = .ok a) {a b : α} : write a = write b ↔ a = b := by
  constructor
  · intro h
    have found := back a
    rw [h, back b] at found
    exact (Except.ok.inj found).symm
  · intro h
    rw [h]

/-- A selector is split off from what follows it. -/
theorem splitSelector_append (selector : Selector) (payload : Bytes) :
    splitSelector (Bytes.ofBits selector ++ payload) = .ok (selector, payload) := by
  have length : (Bytes.ofBits selector).length = 4 := Bytes.length_ofBits selector
  have long : ¬ (Bytes.ofBits selector ++ payload).length < 4 := by
    rw [List.length_append, length]
    omega
  rw [splitSelector, if_neg long, List.take_left' length, List.drop_left' length,
    Bytes.toBits_ofBits (by decide)]

namespace Abi

theorem Cursor.word_eq_ok_iff {c c' : Cursor} {w : Word} :
    c.word = .ok (w, c') ↔
      32 ≤ c.rest.length ∧ w = Bytes.toBits 256 (c.rest.take 32) ∧
        c' = { c with rest := c.rest.drop 32 } := by
  have full : (c.rest.take 32).length < 32 ↔ ¬ 32 ≤ c.rest.length := by
    rw [List.length_take]
    omega
  unfold Cursor.word
  simp only [full]
  split
  · rename_i short
    simp [short]
  · rename_i long
    simp only [Except.ok.injEq, Prod.mk.injEq, Decidable.not_not.mp long, true_and, eq_comm]

theorem decode_fixedBytes_eq_ok_iff {size : Nat} {c c' : Cursor} {value : Value} :
    (Ty.fixedBytes size).decode c = .ok (value, c') ↔
      ∃ w, c.word = .ok (w, c') ∧ value = .fixedBytes w size := by
  rw [Ty.decode, Except.bind_eq_ok_iff]
  constructor
  · rintro ⟨⟨w, c''⟩, hword, h⟩
    cases h
    exact ⟨w, hword, rfl⟩
  · rintro ⟨w, hword, rfl⟩
    exact ⟨(w, c'), hword, rfl⟩

/-- Values read for parameters iff the first one does, and the others do where it ended. -/
theorem readAll_cons_eq_ok_iff {param : Param} {rest : List Param} {c : Cursor}
    {values : List Value} :
    readAll (param :: rest) c = .ok values ↔
      ∃ ty value c' tail, param.resolve = .ok ty ∧ ty.decode c = .ok (value, c') ∧
        readAll rest c' = .ok tail ∧ values = value :: tail := by
  rw [readAll]
  cases hty : param.resolve with
  | error cause => simp
  | ok ty =>
    cases hvalue : ty.decode c with
    | error cause => simp [hvalue]
    | ok read =>
      obtain ⟨value, c'⟩ := read
      simp only [hvalue, Except.map_eq_ok_iff]
      constructor
      · rintro ⟨tail, htail, rfl⟩
        exact ⟨ty, value, c', tail, rfl, hvalue, htail, rfl⟩
      · rintro ⟨ty', value', c'', tail, hty', hvalue', htail, rfl⟩
        cases hty'
        rw [hvalue] at hvalue'
        cases hvalue'
        exact ⟨tail, htail, rfl⟩

theorem Signature.decodeInput_eq_ok_iff {signature : Signature} {data : Bytes}
    {values : List Value} :
    signature.decodeInput data = .ok values ↔
      readAll signature.inputs (Cursor.start data) = .ok values := by
  unfold Signature.decodeInput decodeFor
  split
  · rename_i values' h
    simp [h]
  · rename_i e h
    simp [h]

end Abi

end OffchainNames
