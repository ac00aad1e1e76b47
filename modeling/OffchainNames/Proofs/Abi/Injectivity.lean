import OffchainNames.Proofs.Abi.Conforming

/-!
# Values of the same types are not encoded alike

Nothing is lost in an encoding: values that belong to the same types and have the same encoding are the
same (`Abi.eq_of_encode`). The body of a value tells where it ends (`Abi.Delimited`): it is of a width that
the type gives, or starts with its own length. So heads that begin alike go on alike, the distances in them
need not be followed, and the tails are told apart in turn. Lengths have to fit the word that they are
written in, and nothing is asked of the length of the encoding itself.
-/

namespace OffchainNames

namespace Bytes

variable {after after' : Bytes}

theorem ofBits_inj {width : Nat} (whole : 8 ∣ width) {a b : BitVec width}
    (same : ofBits a = ofBits b) : a = b :=
  Function.LeftInverse.injective (toBits_ofBits whole) same

/-- A word of whole bytes is told by them, whatever follows. -/
theorem ofBits_append_inj {width : Nat} (whole : 8 ∣ width) {a b : BitVec width}
    (same : ofBits a ++ after = ofBits b ++ after') : a = b := by
  have bytes := (List.append_inj same (by rw [length_ofBits, length_ofBits])).1
  exact ofBits_inj whole bytes

theorem ofString_inj {a b : String} (same : ofString a = ofString b) : a = b :=
  Function.LeftInverse.injective Utf8.decodeLossy_ofString same

/-- Eight bytes tell a number of 64 bits. -/
theorem ofNat_toNat_inj {a b : UInt64} (same : ofNat 8 a.toNat = ofNat 8 b.toNat) : a = b := by
  have numbers := congrArg toNat same
  rw [toNat_ofNat, toNat_ofNat, Nat.mod_eq_of_lt a.toNat_lt, Nat.mod_eq_of_lt b.toNat_lt] at numbers
  exact UInt64.toNat_inj.mp numbers

end Bytes

/-- A word tells a number of 64 bits. -/
theorem Word.ofNat_toNat_inj {a b : UInt64}
    (same : BitVec.ofNat 256 a.toNat = BitVec.ofNat 256 b.toNat) : a = b := by
  have numbers := congrArg BitVec.toNat same
  rw [BitVec.toNat_ofNat, BitVec.toNat_ofNat,
    Nat.mod_eq_of_lt (Nat.lt_trans a.toNat_lt (by decide)),
    Nat.mod_eq_of_lt (Nat.lt_trans b.toNat_lt (by decide))] at numbers
  exact UInt64.toNat_inj.mp numbers

namespace Abi

/-- A number that fits a word is told by it, whatever follows. -/
theorem wordOf_append_inj {n m : Nat} {after after' : Bytes} (hn : n < Nat.pow 2 256)
    (hm : m < Nat.pow 2 256) (same : wordOf n ++ after = wordOf m ++ after') :
    n = m ∧ after = after' := by
  obtain ⟨words, rest⟩ := List.append_inj same (by simp [wordOf])
  have numbers := congrArg Bytes.toNat words
  rw [wordOf, wordOf, Bytes.toNat_ofNat, Bytes.toNat_ofNat] at numbers
  exact ⟨by rwa [Nat.mod_eq_of_lt hn, Nat.mod_eq_of_lt hm] at numbers, rest⟩

/-- A byte string is told by its length and its bytes, whatever follows. -/
theorem sized_append_inj {a b after after' : Bytes} (ha : a.length < Nat.pow 2 256)
    (hb : b.length < Nat.pow 2 256) (same : sized a ++ after = sized b ++ after') : a = b := by
  simp only [sized, Bytes.padRight, List.append_assoc] at same
  obtain ⟨lengths, rest⟩ := wordOf_append_inj ha hb same
  exact (List.append_inj rest lengths).1

/-- The lengths of all byte strings, texts and lists in a value fit a word. -/
inductive Value.Fits : Value → Prop where
  | bool (b : Bool) : Fits (.bool b)
  | uint (word : Word) (bits : Nat) : Fits (.uint word bits)
  | int (word : Word) (bits : Nat) : Fits (.int word bits)
  | fixedBytes (word : Word) (size : Nat) : Fits (.fixedBytes word size)
  | address (a : Address) : Fits (.address a)
  | function (f : BitVec 192) : Fits (.function f)
  | bytes {b : Bytes} (short : b.length < Nat.pow 2 256) : Fits (.bytes b)
  | string {s : String} (short : (Bytes.ofString s).length < Nat.pow 2 256) : Fits (.string s)
  | array {values : List Value} (short : values.length < Nat.pow 2 256)
    (all : ∀ value ∈ values, Fits value) : Fits (.array values)
  | fixedArray {values : List Value} (all : ∀ value ∈ values, Fits value) : Fits (.fixedArray values)
  | tuple {values : List Value} (all : ∀ value ∈ values, Fits value) : Fits (.tuple values)

/-- A value of a type is told by its body, whatever follows it. -/
structure Delimited (value : Value) (ty : Ty) : Prop where
  belongs : Belongs value ty
  told : ∀ other, Belongs other ty → other.Fits → ∀ after after',
    value.part.body ++ after = other.part.body ++ after' → value = other

namespace Delimited

variable {values others : List Value} {types : List Ty} {after after' : Bytes}

theorem tailed_eq {value other : Value} {ty : Ty} (h : Delimited value ty) (belongs : Belongs other ty) :
    value.part.tailed = other.part.tailed :=
  h.belongs.tailed.trans belongs.tailed.symm

/-- Heads that start alike end together, and the values whose bodies stand in them are the same. -/
theorem of_heads {distance distance' : Nat} (each : List.Forall₂ Delimited values types)
    (belong : List.Forall₂ Belongs others types) (fit : ∀ other ∈ others, other.Fits)
    (same : Part.heads distance (Value.parts values) ++ after =
      Part.heads distance' (Value.parts others) ++ after') :
    after = after' ∧
      List.Forall₂ (fun value other => value.part.tailed = false → value = other) values others := by
  induction each generalizing others distance distance' with
  | nil =>
    cases belong
    exact ⟨same, .nil⟩
  | @cons value ty values types first rest ih =>
    obtain _ | @⟨other, _, others, _, belongs, belong⟩ := belong
    obtain ⟨fits, later⟩ := List.forall_mem_cons.mp fit
    rw [Value.parts, Value.parts, Part.heads_cons, Part.heads_cons, List.append_assoc,
      List.append_assoc, Part.head, Part.head, ← first.tailed_eq belongs] at same
    cases among : value.part.tailed with
    | true =>
      -- Only a distance stands here, and it takes one word whatever it is.
      rw [among, if_pos rfl, if_pos rfl] at same
      obtain ⟨-, same⟩ := List.append_inj same (by simp [wordOf])
      obtain ⟨ended, rest⟩ := ih belong later same
      exact ⟨ended, .cons (fun flat => by rw [among] at flat; cases flat) rest⟩
    | false =>
      rw [among, if_neg Bool.false_ne_true, if_neg Bool.false_ne_true] at same
      obtain rfl := first.told other belongs fits _ _ same
      obtain ⟨ended, rest⟩ := ih belong later (List.append_cancel_left same)
      exact ⟨ended, .cons (fun _ => rfl) rest⟩

/-- Where tails are alike, the values whose bodies stand in them are the same. -/
theorem of_tails (each : List.Forall₂ Delimited values types)
    (belong : List.Forall₂ Belongs others types) (fit : ∀ other ∈ others, other.Fits)
    (same : Part.tails (Value.parts values) ++ after = Part.tails (Value.parts others) ++ after') :
    List.Forall₂ (fun value other => value.part.tailed = true → value = other) values others := by
  induction each generalizing others with
  | nil =>
    cases belong
    exact .nil
  | @cons value ty values types first rest ih =>
    obtain _ | @⟨other, _, others, _, belongs, belong⟩ := belong
    obtain ⟨fits, later⟩ := List.forall_mem_cons.mp fit
    rw [Value.parts, Value.parts, Part.tails_cons, Part.tails_cons, List.append_assoc,
      List.append_assoc, Part.tail, Part.tail, ← first.tailed_eq belongs] at same
    cases among : value.part.tailed with
    | true =>
      rw [among, if_pos rfl, if_pos rfl] at same
      obtain rfl := first.told other belongs fits _ _ same
      exact .cons (fun _ => rfl) (ih belong later (List.append_cancel_left same))
    | false =>
      rw [among, if_neg Bool.false_ne_true, if_neg Bool.false_ne_true] at same
      exact .cons (fun tailed => by rw [among] at tailed; cases tailed) (ih belong later same)

/-- Values are told by their heads and tails. -/
theorem of_assemble (each : List.Forall₂ Delimited values types)
    (belong : List.Forall₂ Belongs others types) (fit : ∀ other ∈ others, other.Fits)
    (same : Part.assemble (Value.parts values) ++ after =
      Part.assemble (Value.parts others) ++ after') : values = others := by
  rw [Part.assemble, Part.assemble, List.append_assoc, List.append_assoc] at same
  obtain ⟨tails, flat⟩ := of_heads each belong fit same
  have tailed := of_tails each belong fit tails
  rw [← List.forall₂_eq_eq_eq]
  clear each belong fit same tails
  induction flat with
  | nil => exact .nil
  | @cons value other values others here rest ih =>
    obtain ⟨there, tailed⟩ := List.forall₂_cons.mp tailed
    refine .cons ?_ (ih tailed)
    cases among : value.part.tailed with
    | true => exact there among
    | false => exact here among

/-- Values of one type are told by their number, their heads and their tails. -/
theorem of_assemble_list {element : Ty} (each : ∀ value ∈ values, Delimited value element)
    (belong : ∀ other ∈ others, Belongs other element) (fit : ∀ other ∈ others, other.Fits)
    (length : values.length = others.length)
    (same : Part.assemble (Value.parts values) ++ after =
      Part.assemble (Value.parts others) ++ after') : values = others := by
  have delimited : List.Forall₂ Delimited values (List.replicate others.length element) := by
    rw [← length, ← List.map_const']
    exact List.forall₂_map_right_iff.mpr (List.forall₂_same.mpr each)
  have belong' : List.Forall₂ Belongs others (List.replicate others.length element) := by
    rw [← List.map_const']
    exact List.forall₂_map_right_iff.mpr (List.forall₂_same.mpr belong)
  exact of_assemble delimited belong' fit same

end Delimited

/-- A value whose lengths fit is told by its body. -/
theorem Belongs.delimited {ty : Ty} {value : Value} (h : Belongs value ty) (fits : value.Fits) :
    Delimited value ty := by
  induction h with
  | bool b =>
    refine ⟨.bool b, ?_⟩
    rintro _ ⟨c⟩ - after after' same
    rw [Value.part, Value.part] at same
    have numbers := (wordOf_append_inj (by cases b <;> decide) (by cases c <;> decide) same).1
    cases b <;> cases c <;> simp at numbers ⊢
  | uint word bits =>
    refine ⟨.uint word bits, ?_⟩
    rintro _ ⟨⟩ - after after' same
    rw [Value.part, Value.part] at same
    rw [Bytes.ofBits_append_inj (by decide) same]
  | int word bits =>
    refine ⟨.int word bits, ?_⟩
    rintro _ ⟨⟩ - after after' same
    rw [Value.part, Value.part] at same
    rw [Bytes.ofBits_append_inj (by decide) same]
  | fixedBytes word size =>
    refine ⟨.fixedBytes word size, ?_⟩
    rintro _ ⟨⟩ - after after' same
    rw [Value.part, Value.part] at same
    rw [Bytes.ofBits_append_inj (by decide) same]
  | address a =>
    refine ⟨.address a, ?_⟩
    intro other belongs _ after after' same
    obtain ⟨b, rfl⟩ := belongs_address_iff.mp belongs
    rw [Value.part, Value.part] at same
    have hb : b.toNat < Nat.pow 2 256 := Nat.lt_trans b.isLt (by decide)
    have ha : a.toNat < Nat.pow 2 256 := Nat.lt_trans a.isLt (by decide)
    rw [BitVec.eq_of_toNat_eq (wordOf_append_inj ha hb same).1]
  | function f =>
    refine ⟨.function f, ?_⟩
    rintro _ ⟨⟩ - after after' same
    rw [Value.part, Value.part, List.append_assoc, List.append_assoc] at same
    rw [Bytes.ofBits_append_inj (by decide) same]
  | bytes b =>
    refine ⟨.bytes b, ?_⟩
    intro other belongs fits' after after' same
    obtain ⟨c, rfl⟩ := belongs_bytes_iff.mp belongs
    cases fits with | bytes hb =>
    cases fits' with | bytes hc =>
    rw [Value.part, Value.part] at same
    rw [sized_append_inj hb hc same]
  | string s =>
    refine ⟨.string s, ?_⟩
    intro other belongs fits' after after' same
    obtain ⟨t, rfl⟩ := belongs_string_iff.mp belongs
    cases fits with | string hs =>
    cases fits' with | string ht =>
    rw [Value.part, Value.part] at same
    rw [Bytes.ofString_inj (sized_append_inj hs ht same)]
  | @array element values all ih =>
    refine ⟨.array all, ?_⟩
    intro other belongs fits' after after' same
    cases belongs with | @array _ others all' =>
    cases fits with | array short fit =>
    cases fits' with | array short' fit' =>
    rw [Value.part, Value.part, List.append_assoc, List.append_assoc] at same
    obtain ⟨length, same⟩ := wordOf_append_inj short short' same
    have each : ∀ value ∈ values, Delimited value element := fun value member =>
      ih value member (fit value member)
    rw [Delimited.of_assemble_list each all' fit' length same]
  | @fixedArray element values all ih =>
    refine ⟨.fixedArray all, ?_⟩
    intro other belongs fits' after after' same
    generalize hsize : values.length = size at belongs
    cases belongs with | @fixedArray _ others all' =>
    cases fits with | fixedArray fit =>
    cases fits' with | fixedArray fit' =>
    rw [Value.part, Value.part] at same
    have each : ∀ value ∈ values, Delimited value element := fun value member =>
      ih value member (fit value member)
    rw [Delimited.of_assemble_list each all' fit' hsize same]
  | @tuple components values length all ih =>
    refine ⟨.tuple length all, ?_⟩
    intro other belongs fits' after after' same
    cases belongs with | @tuple _ others length' all' =>
    cases fits with | tuple fit =>
    cases fits' with | tuple fit' =>
    rw [Value.part, Value.part] at same
    have each : List.Forall₂ Delimited values components :=
      forall₂_of_zip length fun pair member => ih pair member (fit _ (List.of_mem_zip member).1)
    rw [Delimited.of_assemble each (forall₂_of_zip length' all') fit' same]

/-- Values that belong to the same types and whose lengths fit are the same if they are encoded alike,
whatever follows their encodings. -/
theorem eq_of_encode {types : List Ty} {values others : List Value} {after after' : Bytes}
    (belong : List.Forall₂ Belongs values types) (belong' : List.Forall₂ Belongs others types)
    (fit : ∀ value ∈ values, value.Fits) (fit' : ∀ other ∈ others, other.Fits)
    (same : encode values ++ after = encode others ++ after') : values = others := by
  obtain ⟨length, each⟩ := List.forall₂_iff_zip.mp belong
  refine Delimited.of_assemble (Belongs.forall₂_of_zip length fun pair member => ?_) belong' fit' same
  exact (each member).delimited (fit _ (List.of_mem_zip member).1)

end Abi

end OffchainNames
