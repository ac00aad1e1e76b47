import OffchainNames.Proofs.Abi.Reading
import OffchainNames.Proofs.Abi.Types
import OffchainNames.Proofs.Text.Utf8

/-!
# Values are read back from their encoding

Values that belong to their types are read back from their encoding (`Abi.decode_encode`), if the
types do not nest too deeply for the reader, no fixed list and no tuple among them is without elements,
and the encoding is short enough for its distances to fit 64 bits. A value is read wherever its parts
are placed (`Abi.Belongs.reads`), by induction on the value and its type.
-/

namespace OffchainNames

/-- Zero bytes follow the bytes of a number that is shifted by them. -/
theorem Bytes.ofNat_shifted (width shift n : Nat) :
    ofNat (width + shift) (n * Nat.pow 256 shift) = ofNat width n ++ List.replicate shift 0 := by
  induction shift with
  | zero => simp
  | succ shift ih =>
    have shifted : n * Nat.pow 256 (shift + 1) = n * Nat.pow 256 shift * 256 :=
      (Nat.mul_assoc ..).symm
    have last : UInt8.ofNat (n * Nat.pow 256 shift * 256) = 0 := by
      apply UInt8.toNat.inj
      simp
    rw [shifted, ← Nat.add_assoc, ofNat, Nat.mul_div_cancel _ (by decide), ih, last,
      List.replicate_succ', List.append_assoc]

namespace Abi

namespace Ty

/-- Induction on types: a property of the components of a tuple has to carry over to the tuple. -/
@[elab_as_elim]
theorem induction {motive : Ty → Prop} (bool : motive .bool) (uint : ∀ bits, motive (.uint bits))
    (int : ∀ bits, motive (.int bits)) (fixedBytes : ∀ size, motive (.fixedBytes size))
    (address : motive .address) (function : motive .function) (bytes : motive .bytes)
    (string : motive .string) (array : ∀ element, motive element → motive (.array element))
    (fixedArray : ∀ element size, motive element → motive (.fixedArray element size))
    (tuple : ∀ components, (∀ ty ∈ components, motive ty) → motive (.tuple components))
    (ty : Ty) : motive ty := by
  refine Ty.rec (motive_1 := motive) (motive_2 := fun types => ∀ ty ∈ types, motive ty)
    bool uint int fixedBytes address function bytes string array fixedArray tuple ?_ ?_ ty
  · intro ty member
    cases member
  · intro first rest hfirst hrest ty member
    rcases List.mem_cons.mp member with rfl | member
    · exact hfirst
    · exact hrest ty member

mutual

/-- The greatest number of frames that reading a value of a type opens inside each other. -/
def frames : Ty → Nat
  | .bytes => 1
  | .string => 1
  | .array element => 2 + element.frames
  | .fixedArray element _ => 1 + element.frames
  | .tuple components => 1 + framesOf components
  | _ => 0

/-- The greatest number of frames that reading a value of one of the types opens. -/
def framesOf : List Ty → Nat
  | [] => 0
  | ty :: rest => max ty.frames (framesOf rest)

end

mutual

/-- Whether no fixed list and no tuple in a type is without elements. -/
def inhabited : Ty → Bool
  | .array element => element.inhabited
  | .fixedArray element size => size != 0 && element.inhabited
  | .tuple components => !components.isEmpty && allInhabited components
  | _ => true

/-- Whether no fixed list and no tuple in any of the types is without elements. -/
def allInhabited : List Ty → Bool
  | [] => true
  | ty :: rest => ty.inhabited && allInhabited rest

end

theorem frames_le_framesOf {ty : Ty} {types : List Ty} (member : ty ∈ types) :
    ty.frames ≤ framesOf types := by
  induction types with
  | nil => cases member
  | cons first rest ih =>
    rw [framesOf]
    rcases List.mem_cons.mp member with rfl | member
    · exact Nat.le_max_left ..
    · exact Nat.le_trans (ih member) (Nat.le_max_right ..)

theorem allInhabited_iff {types : List Ty} :
    allInhabited types = true ↔ ∀ ty ∈ types, ty.inhabited = true := by
  induction types with
  | nil => simp [allInhabited]
  | cons first rest ih => simp [allInhabited, ih]

/-- The words that every list spends on a value, if it has to spend one at all. -/
theorem minWords_pos {ty : Ty} (h : ty.inhabited = true) : 0 < ty.minWords := by
  induction ty using Ty.induction with
  | fixedArray element size ih =>
    simp only [inhabited, Bool.and_eq_true, bne_iff_ne, ne_eq] at h
    rw [minWords]
    exact Nat.mul_pos (Nat.pos_of_ne_zero h.1) (ih h.2)
  | tuple components ih =>
    cases components with
    | nil => cases h
    | cons first rest =>
      simp only [inhabited, List.isEmpty_cons, Bool.not_false, Bool.true_and, allInhabited,
        Bool.and_eq_true] at h
      have := ih first (List.mem_cons_self ..) h.1
      rw [minWords, sumWords]
      omega
  | bool | uint | int | fixedBytes | address | function | bytes | string | array =>
    exact Nat.one_pos

theorem admitsAll_iff {types : List Ty} {values : List Value} : admitsAll types values = true ↔
    List.Forall₂ (fun value ty => ty.admits value = true) values types := by
  induction types generalizing values with
  | nil => cases values <;> simp [admitsAll]
  | cons ty rest ih => cases values <;> simp [admitsAll, ih]

end Ty

/-- A value belongs to a type: it is of the same kind, and what is inside belongs to the types inside. -/
inductive Belongs : Value → Ty → Prop where
  | bool (b : Bool) : Belongs (.bool b) .bool
  | uint (word : Word) (bits : Nat) : Belongs (.uint word bits) (.uint bits)
  | int (word : Word) (bits : Nat) : Belongs (.int word bits) (.int bits)
  | fixedBytes (word : Word) (size : Nat) : Belongs (.fixedBytes word size) (.fixedBytes size)
  | address (a : Address) : Belongs (.address a) .address
  | function (f : BitVec 192) : Belongs (.function f) .function
  | bytes (b : Bytes) : Belongs (.bytes b) .bytes
  | string (s : String) : Belongs (.string s) .string
  | array {element : Ty} {values : List Value} (all : ∀ value ∈ values, Belongs value element) :
    Belongs (.array values) (.array element)
  | fixedArray {element : Ty} {values : List Value} (all : ∀ value ∈ values, Belongs value element) :
    Belongs (.fixedArray values) (.fixedArray element values.length)
  | tuple {components : List Ty} {values : List Value} (length : values.length = components.length)
    (each : ∀ pair ∈ values.zip components, Belongs pair.1 pair.2) :
    Belongs (.tuple values) (.tuple components)

namespace Belongs

/-- What the check admits belongs to the type. -/
theorem of_admits {ty : Ty} {value : Value} (h : ty.admits value = true) : Belongs value ty := by
  induction ty using Ty.induction generalizing value with
  | bool =>
    cases value with
    | bool b => exact .bool b
    | _ => cases h
  | uint bits =>
    cases value with
    | uint word label =>
      obtain rfl := beq_iff_eq.mp h
      exact .uint word bits
    | _ => cases h
  | int bits =>
    cases value with
    | int word label =>
      obtain rfl := beq_iff_eq.mp h
      exact .int word bits
    | _ => cases h
  | fixedBytes size =>
    cases value with
    | fixedBytes word label =>
      obtain rfl := beq_iff_eq.mp h
      exact .fixedBytes word size
    | _ => cases h
  | address =>
    cases value with
    | address a => exact .address a
    | _ => cases h
  | function =>
    cases value with
    | function f => exact .function f
    | _ => cases h
  | bytes =>
    cases value with
    | bytes b => exact .bytes b
    | _ => cases h
  | string =>
    cases value with
    | string s => exact .string s
    | _ => cases h
  | array element ih =>
    cases value with
    | array values =>
      rw [Ty.admits, List.all_eq_true] at h
      exact .array fun value member => ih (h value member)
    | _ => cases h
  | fixedArray element size ih =>
    cases value with
    | fixedArray values =>
      rw [Ty.admits, Bool.and_eq_true, beq_iff_eq, List.all_eq_true] at h
      obtain ⟨rfl, all⟩ := h
      exact .fixedArray fun value member => ih (all value member)
    | _ => cases h
  | tuple components ih =>
    cases value with
    | tuple values =>
      rw [Ty.admits, Ty.admitsAll_iff] at h
      obtain ⟨length, each⟩ := List.forall₂_iff_zip.mp h
      refine .tuple length fun pair member => ?_
      exact ih pair.2 (List.of_mem_zip member).2 (each member)
    | _ => cases h

theorem forall₂_of_zip {R : Value → Ty → Prop} {values : List Value} {types : List Ty}
    (length : values.length = types.length) (each : ∀ pair ∈ values.zip types, R pair.1 pair.2) :
    List.Forall₂ R values types :=
  List.forall₂_iff_zip.mpr ⟨length, fun member => each _ member⟩

theorem any_tailed_of_forall {values : List Value} {b : Bool}
    (h : ∀ value ∈ values, value.part.tailed = b) :
    (Value.parts values).any Part.tailed = (values.length != 0 && b) := by
  induction values with
  | nil => rfl
  | cons first rest ih =>
    rw [Value.parts, List.any_cons, h first (List.mem_cons_self ..),
      ih fun value member => h value (List.mem_cons_of_mem _ member)]
    cases b <;> simp

theorem any_tailed_of_forall₂ {values : List Value} {types : List Ty}
    (h : List.Forall₂ (fun value ty => value.part.tailed = ty.isTailed) values types) :
    (Value.parts values).any Part.tailed = Ty.anyTailed types := by
  induction h with
  | nil => rfl
  | cons first _ ih => rw [Value.parts, Ty.anyTailed, List.any_cons, first, ih]

/-- The values of the types that go among the tails do so, and no others. -/
theorem tailed {ty : Ty} {value : Value} (h : Belongs value ty) :
    value.part.tailed = ty.isTailed := by
  induction h with
  | fixedArray all ih => exact any_tailed_of_forall ih
  | tuple length each ih => exact any_tailed_of_forall₂ (forall₂_of_zip length ih)
  | _ => rfl

theorem words_of_forall {values : List Value} {words : Nat}
    (h : ∀ value ∈ values, 32 * words ≤ value.part.size) :
    32 * (words * values.length) ≤ (Part.assemble (Value.parts values)).length := by
  rw [Part.length_assemble]
  induction values with
  | nil => exact Nat.le_refl 0
  | cons first rest ih =>
    have hfirst := h first (List.mem_cons_self ..)
    have hrest := ih fun value member => h value (List.mem_cons_of_mem _ member)
    rw [Value.parts, Part.totalSize_cons, List.length_cons, Nat.mul_succ]
    omega

theorem words_of_forall₂ {values : List Value} {types : List Ty}
    (h : List.Forall₂ (fun value ty => 32 * ty.minWords ≤ value.part.size) values types) :
    32 * Ty.sumWords types ≤ (Part.assemble (Value.parts values)).length := by
  rw [Part.length_assemble]
  induction h with
  | nil => exact Nat.le_refl 0
  | cons first _ ih =>
    rw [Value.parts, Ty.sumWords, Part.totalSize_cons]
    omega

/-- A value takes the words that a list spends on it. -/
theorem minWords_le {ty : Ty} {value : Value} (h : Belongs value ty) :
    32 * ty.minWords ≤ value.part.size := by
  induction h with
  | @fixedArray element values all ih =>
    have least := words_of_forall ih
    rw [Ty.minWords, Nat.mul_comm values.length]
    exact Nat.le_trans least (Part.length_body_le ⟨_, _⟩)
  | tuple length each ih =>
    have least := words_of_forall₂ (forall₂_of_zip length ih)
    exact Nat.le_trans least (Part.length_body_le ⟨_, _⟩)
  | bytes b | string s | array all ih => exact Nat.le_add_right 32 _
  | _ => simp [Ty.minWords, Value.part, Part.size, Part.headSize, Part.tail, wordOf]

end Belongs

theorem reads_repeated {read : Cursor → Except DecodeError (Value × Cursor)} {values : List Value}
    {depth : Nat} (h : ∀ value ∈ values, Reads read [value.part] depth value) :
    Reads (repeated read values.length) (Value.parts values) depth values := by
  induction values with
  | nil => exact fun _ _ _ _ => rfl
  | cons first rest ih =>
    exact .cons (h first (List.mem_cons_self ..))
      (ih fun value member => h value (List.mem_cons_of_mem _ member))

theorem reads_decodeAll {values : List Value} {types : List Ty} {depth : Nat}
    (h : List.Forall₂ (fun value ty => Reads ty.decode [value.part] depth value) values types) :
    Reads (Ty.decodeAll types) (Value.parts values) depth values := by
  induction h with
  | nil => exact fun _ _ _ _ => by rw [Ty.decodeAll]; rfl
  | cons first _ ih => exact .cons first ih

theorem reads_bool (b : Bool) (depth : Nat) :
    Reads Ty.bool.decode [⟨false, wordOf b.toNat⟩] depth (.bool b) := by
  obtain ⟨w, number, written⟩ := Cursor.wordOf_eq (n := b.toNat) (by cases b <;> decide)
  have truth : (w != 0) = b := by
    rw [Bool.eq_iff_iff, bne_iff_ne, ne_eq, ← BitVec.toNat_inj, number]
    cases b <;> decide
  have read : Reads Ty.bool.decode _ depth (.bool (w != 0)) :=
    (Reads.word w depth).map (fun w => Value.bool (w != 0)) fun c => by rw [Ty.decode]
  rwa [truth, ← written] at read

theorem reads_address (a : Address) (depth : Nat) :
    Reads Ty.address.decode [⟨false, wordOf a.toNat⟩] depth (.address a) := by
  obtain ⟨w, number, written⟩ := Cursor.wordOf_eq (n := a.toNat) (Nat.lt_trans a.isLt (by decide))
  have low : w.setWidth 160 = a := by
    apply BitVec.eq_of_toNat_eq
    rw [BitVec.toNat_setWidth, number, Nat.mod_eq_of_lt a.isLt]
  have read : Reads Ty.address.decode _ depth (.address (w.setWidth 160)) :=
    (Reads.word w depth).map (fun w => Value.address (w.setWidth 160)) fun c => by rw [Ty.decode]
  rwa [low, ← written] at read

theorem reads_function (f : BitVec 192) (depth : Nat) :
    Reads Ty.function.decode [⟨false, Bytes.ofBits f ++ List.replicate 8 0⟩] depth (.function f) := by
  have bound : f.toNat * Nat.pow 256 8 < Nat.pow 2 256 :=
    Nat.mul_lt_mul_of_pos_right f.isLt (by decide)
  obtain ⟨w, number, written⟩ := Cursor.wordOf_eq bound
  have high : (w >>> 64).setWidth 192 = f := by
    apply BitVec.eq_of_toNat_eq
    have quotient : f.toNat * Nat.pow 256 8 / Nat.pow 2 64 = f.toNat :=
      Nat.mul_div_cancel f.toNat (by decide : 0 < Nat.pow 256 8)
    rw [BitVec.toNat_setWidth, BitVec.toNat_ushiftRight, number, Nat.shiftRight_eq_div_pow]
    exact (congrArg (· % 2 ^ 192) quotient).trans (Nat.mod_eq_of_lt f.isLt)
  have filled : Bytes.ofBits f ++ List.replicate 8 0 = Bytes.ofBits w := by
    rw [← written]
    exact (Bytes.ofNat_shifted 24 8 f.toNat).symm
  have read : Reads Ty.function.decode _ depth (.function ((w >>> 64).setWidth 192)) :=
    (Reads.word w depth).map (fun w => Value.function ((w >>> 64).setWidth 192)) fun c => by
      rw [Ty.decode]
  rwa [high, ← filled] at read

theorem reads_string (s : String) {depth : Nat} (room : depth < maxFrames) :
    Reads Ty.string.decode [⟨true, sized (Bytes.ofString s)⟩] depth (.string s) := by
  have read : Reads Ty.string.decode _ depth (.string (Utf8.decodeLossy (Bytes.ofString s))) :=
    (Reads.sized (Bytes.ofString s) room).map
      (fun content => Value.string (Utf8.decodeLossy content)) fun c => by rw [Ty.decode]
  rwa [Utf8.decodeLossy_ofString] at read

/-- A value that belongs to a type is read wherever its parts are placed. -/
theorem Belongs.reads {ty : Ty} {value : Value} (h : Belongs value ty) (solid : ty.inhabited = true)
    {depth : Nat} (room : depth + ty.frames ≤ maxFrames) :
    Reads ty.decode [value.part] depth value := by
  -- The elements of a list are read two frames further in, those of a tuple one.
  induction h generalizing depth with
  | bool b =>
    rw [Value.part]
    exact reads_bool b depth
  | uint word bits =>
    rw [Value.part]
    exact (Reads.word word depth).map (Value.uint · bits) fun c => by rw [Ty.decode]
  | int word bits =>
    rw [Value.part]
    exact (Reads.word word depth).map (Value.int · bits) fun c => by rw [Ty.decode]
  | fixedBytes word size =>
    rw [Value.part]
    exact (Reads.word word depth).map (Value.fixedBytes · size) fun c => by rw [Ty.decode]
  | address a =>
    rw [Value.part]
    exact reads_address a depth
  | function f =>
    rw [Value.part]
    exact reads_function f depth
  | bytes b =>
    rw [Value.part]
    exact (Reads.sized b room).map Value.bytes fun c => by rw [Ty.decode]
  | string s =>
    rw [Value.part]
    exact reads_string s room
  | @array element values all ih =>
    rw [Value.part]
    rw [Ty.inhabited] at solid
    rw [Ty.frames] at room
    have each : Reads (repeated element.decode values.length) (Value.parts values) (depth + 2)
        values := reads_repeated fun value member => ih value member solid (by omega)
    have least := words_of_forall fun value member => (all value member).minWords_le
    exact (Reads.listed (by omega) each (Ty.minWords_pos solid) least).map Value.array fun c => by
      rw [Ty.decode]
  | @fixedArray element values all ih =>
    rw [Value.part]
    rw [Ty.inhabited, Bool.and_eq_true] at solid
    rw [Ty.frames] at room
    have each : Reads (repeated element.decode values.length) (Value.parts values) (depth + 1)
        values := reads_repeated fun value member => ih value member solid.2 (by omega)
    have among := any_tailed_of_forall fun value member => (all value member).tailed
    exact (Reads.framed each (by omega)).map Value.fixedArray fun c => by rw [Ty.decode, among]
  | @tuple components values length each ih =>
    rw [Value.part]
    rw [Ty.inhabited, Bool.and_eq_true, Ty.allInhabited_iff] at solid
    rw [Ty.frames] at room
    have all : Reads (Ty.decodeAll components) (Value.parts values) (depth + 1) values := by
      refine reads_decodeAll (forall₂_of_zip length fun pair member => ?_)
      have among := (List.of_mem_zip member).2
      have deep := Ty.frames_le_framesOf among
      exact ih pair member (solid.2 pair.2 among) (by omega)
    have among := any_tailed_of_forall₂ (forall₂_of_zip length fun pair member =>
      (each pair member).tailed)
    exact (Reads.framed all (by omega)).map Value.tuple fun c => by rw [Ty.decode, among]

/-- Values that belong to types are read back from their encoding. -/
theorem decode_encode {types : List Ty} {values : List Value}
    (admits : Ty.admitsAll types values = true) (solid : Ty.allInhabited types = true)
    (frames : Ty.framesOf types ≤ maxFrames) (short : (encode values).length < UInt64.size) :
    decode types (encode values) = .ok values := by
  have all : Reads (Ty.decodeAll types) (Value.parts values) 0 values := by
    obtain ⟨length, each⟩ := List.forall₂_iff_zip.mp (Ty.admitsAll_iff.mp admits)
    refine reads_decodeAll (Belongs.forall₂_of_zip length fun pair member => ?_)
    have among := (List.of_mem_zip member).2
    have deep := Ty.frames_le_framesOf among
    exact (Belongs.of_admits (each member)).reads (Ty.allInhabited_iff.mp solid pair.2 among)
      (by omega)
  obtain ⟨after, read, -⟩ := all.start [] fun _ => by
    rw [List.append_nil]
    exact short
  rw [List.append_nil] at read
  rw [decode, Cursor.start, encode, read]
  rfl

/-- Values are read for parameters if they decode to the types of the parameters. -/
theorem readAll_of_decodeAll {params : List Param} {types : List Ty} {c c' : Cursor}
    {values : List Value} (resolved : Param.resolveAll params = .ok types)
    (h : Ty.decodeAll types c = .ok (values, c')) : readAll params c = .ok values := by
  rw [Param.resolveAll_eq_ok_iff] at resolved
  induction resolved generalizing c values with
  | nil =>
    rw [Ty.decodeAll] at h
    cases h
    rfl
  | cons hty hrest ih =>
    rw [Ty.decodeAll, Except.bind_eq_ok_iff] at h
    obtain ⟨⟨value, next⟩, hvalue, h⟩ := h
    obtain ⟨⟨tail, last⟩, htail, h⟩ := Except.bind_eq_ok_iff.mp h
    cases h
    exact readAll_cons_eq_ok_iff.mpr ⟨_, value, next, tail, hty, hvalue, ih htail, rfl⟩

/-- Values that belong to the types of parameters are read back from their encoding. -/
theorem decodeFor_encode {params : List Param} {types : List Ty} {values : List Value}
    (resolved : Param.resolveAll params = .ok types) (admits : Ty.admitsAll types values = true)
    (solid : Ty.allInhabited types = true) (frames : Ty.framesOf types ≤ maxFrames)
    (short : (encode values).length < UInt64.size) :
    decodeFor params (encode values) = .ok values := by
  have decoded := decode_encode admits solid frames short
  rw [decode, Except.map_eq_ok_iff] at decoded
  obtain ⟨⟨read, c⟩, hread, rfl⟩ := decoded
  exact readAll_of_decodeAll resolved hread

end Abi

end OffchainNames
