import OffchainNames.Abi.Encoding
import OffchainNames.Proofs.Abi.Decoding

/-!
# Readers of encoded parts

A reader reads parts as a value (`Abi.Reads`) if it does so wherever the heads of the parts come next
and their tails stand where the heads say: it takes the heads and leaves what follows them. Readers
one after the other read parts one after the other (`Abi.Reads.cons`), and what is written into a
frame of its own is read from that frame (`Abi.Reads.framed`, `Abi.Reads.listed`).
-/

namespace OffchainNames

namespace Abi

namespace Part

/-- What stands among the tails for a part. -/
def tail (part : Part) : Bytes := if part.tailed then part.body else []

/-- What stands among the heads for a part whose tail is at the given distance. -/
def head (distance : Nat) (part : Part) : Bytes :=
  if part.tailed then wordOf distance else part.body

/-- The number of bytes that a part takes, head and tail together. -/
def size (part : Part) : Nat := part.headSize + part.tail.length

/-- The number of bytes that parts take together. -/
def totalSize (parts : List Part) : Nat := parts.foldr (fun part total => part.size + total) 0

@[simp] theorem totalSize_nil : totalSize [] = 0 := rfl

@[simp] theorem totalSize_cons (part : Part) (rest : List Part) :
    totalSize (part :: rest) = part.size + totalSize rest := rfl

@[simp] theorem heads_nil (distance : Nat) : heads distance [] = [] := rfl

theorem heads_cons (distance : Nat) (part : Part) (rest : List Part) :
    heads distance (part :: rest) =
      part.head distance ++ heads (distance + part.tail.length) rest := by
  cases h : part.tailed <;> simp [heads, head, tail, h]

@[simp] theorem tails_nil : tails [] = [] := rfl

@[simp] theorem tails_cons (part : Part) (rest : List Part) :
    tails (part :: rest) = part.tail ++ tails rest := rfl

@[simp] theorem length_head (distance : Nat) (part : Part) :
    (part.head distance).length = part.headSize := by
  cases h : part.tailed <;> simp [head, headSize, wordOf, h]

@[simp] theorem length_heads (distance : Nat) (parts : List Part) :
    (heads distance parts).length = headsSize parts := by
  induction parts generalizing distance with
  | nil => rfl
  | cons part rest ih =>
    rw [heads_cons, List.length_append, length_head, ih]
    rfl

theorem length_assemble (parts : List Part) :
    (assemble parts).length = totalSize parts := by
  rw [assemble, List.length_append, length_heads]
  induction parts with
  | nil => rfl
  | cons part rest ih =>
    have step : headsSize (part :: rest) = part.headSize + headsSize rest := rfl
    rw [step, tails_cons, List.length_append, totalSize_cons, size]
    omega

/-- A part takes at least the bytes of its body. -/
theorem length_body_le (part : Part) : part.body.length ≤ part.size := by
  cases h : part.tailed <;> simp [size, headSize, tail, h]

/-- Parts none of which goes among the tails have no tails. -/
theorem tails_of_not_tailed {parts : List Part} (h : parts.any tailed = false) : tails parts = [] := by
  induction parts with
  | nil => rfl
  | cons part rest ih =>
    rw [List.any_cons, Bool.or_eq_false_iff] at h
    rw [tails_cons, tail, h.1, ih h.2]
    rfl

end Part

/-- A byte string takes a word for its distance, one for its length, and its padded bytes. -/
theorem Value.size_bytes (content : Bytes) :
    (part (.bytes content)).size = 64 + (Bytes.padRight content).length := by
  simp only [part, Part.size, Part.headSize, Part.tail, if_true, sized, wordOf, List.length_append,
    Bytes.length_ofNat]
  omega

/-- A list alone takes two words and its elements. -/
theorem length_encode_array (values : List Value) :
    (encode [.array values]).length = 64 + Part.totalSize (Value.parts values) := by
  rw [encode, Part.length_assemble, Value.parts, Value.parts, Part.totalSize_cons, Part.totalSize_nil]
  simp only [Value.part, Part.size, Part.headSize, Part.tail, if_true, wordOf, List.length_append,
    Bytes.length_ofNat, Part.length_assemble]
  omega

/-- Bytes stand at a distance in a frame that is short enough for its distances to fit 64 bits. -/
structure Holds (frame : Bytes) (distance : Nat) (bytes : Bytes) : Prop where
  small : frame.length < UInt64.size
  inside : distance ≤ frame.length
  found : bytes <+: frame.drop distance

namespace Holds

variable {frame first second : Bytes} {distance : Nat}

theorem left (h : Holds frame distance (first ++ second)) : Holds frame distance first :=
  ⟨h.small, h.inside, (List.prefix_append ..).trans h.found⟩

theorem right (h : Holds frame distance (first ++ second)) :
    Holds frame (distance + first.length) second := by
  obtain ⟨rest, found⟩ := h.found
  have long := congrArg List.length found
  rw [List.length_append, List.length_append, List.length_drop] at long
  have inside := h.inside
  refine ⟨h.small, by omega, rest, ?_⟩
  rw [← List.drop_drop, ← found, List.append_assoc, List.drop_left]

end Holds

namespace Cursor

variable {frame bytes after : Bytes} {depth n : Nat}

theorem word_append (w : Word) :
    word ⟨frame, Bytes.ofBits w ++ after, depth⟩ = .ok (w, ⟨frame, after, depth⟩) := by
  have length : (Bytes.ofBits w).length = 32 := Bytes.length_ofBits w
  refine word_eq_ok_iff.mpr ⟨?_, ?_, ?_⟩
  · rw [List.length_append, length]
    omega
  · rw [List.take_left' length, Bytes.toBits_ofBits (by decide)]
  · rw [List.drop_left' length]

/-- A number below `2 ^ 256` is the number of the word that it is written as. -/
theorem wordOf_eq (h : n < Nat.pow 2 256) : ∃ w : Word, w.toNat = n ∧ wordOf n = Bytes.ofBits w := by
  have value : (BitVec.ofNat 256 n).toNat = n := by
    rw [BitVec.toNat_ofNat]
    exact Nat.mod_eq_of_lt h
  refine ⟨BitVec.ofNat 256 n, value, ?_⟩
  rw [Bytes.ofBits, value]
  rfl

theorem distance_append (h : n < UInt64.size) :
    distance ⟨frame, wordOf n ++ after, depth⟩ = .ok (n, ⟨frame, after, depth⟩) := by
  obtain ⟨w, rfl, written⟩ := wordOf_eq (Nat.lt_trans h (by decide))
  unfold distance
  rw [written, word_append]
  exact if_pos h

theorem follow_of_inside (fits : n < UInt64.size) (inside : n ≤ frame.length)
    (room : depth < maxFrames) (after : Bytes) :
    follow ⟨frame, wordOf n ++ after, depth⟩ =
      .ok (⟨frame.drop n, frame.drop n, depth + 1⟩, ⟨frame, after, depth⟩) := by
  unfold follow
  rw [distance_append fits]
  exact (if_neg (Nat.not_le.mpr room)).trans (if_neg (Nat.not_lt.mpr inside))

theorem follow_append (holds : Holds frame n bytes) (room : depth < maxFrames) (after : Bytes) :
    follow ⟨frame, wordOf n ++ after, depth⟩ =
      .ok (⟨frame.drop n, frame.drop n, depth + 1⟩, ⟨frame, after, depth⟩) :=
  follow_of_inside (Nat.lt_of_le_of_lt holds.inside holds.small) holds.inside room after

/-- A byte string is read after its length, where a distance leads. -/
theorem sized_of_follow {c next : Cursor} (short : bytes.length < UInt64.size)
    (h : c.follow = .ok (⟨frame, wordOf bytes.length ++ (bytes ++ after), depth⟩, next)) :
    c.sized = .ok (bytes, next) := by
  have inside : ¬ (bytes ++ after).length < bytes.length := by
    rw [List.length_append]
    omega
  simp only [sized, h, Except.ok_bind, distance_append short, inside, if_false, List.take_left]
  rfl

theorem enter_eq (room : depth < maxFrames) :
    enter ⟨frame, after, depth⟩ bytes = .ok ⟨bytes, bytes, depth + 1⟩ :=
  if_neg (Nat.not_le.mpr room)

end Cursor

/-- A reader reads parts as a value, with the given number of frames around them. -/
def Reads {α : Type} (read : Cursor → Except DecodeError (α × Cursor)) (parts : List Part)
    (depth : Nat) (value : α) : Prop :=
  ∀ frame distance after, (parts.any Part.tailed = true → Holds frame distance (Part.tails parts)) →
    read ⟨frame, Part.heads distance parts ++ after, depth⟩ = .ok (value, ⟨frame, after, depth⟩)

namespace Reads

variable {α β : Type} {read : Cursor → Except DecodeError (α × Cursor)} {parts : List Part}
  {depth : Nat} {value : α}

theorem map (h : Reads read parts depth value) (f : α → β)
    {read' : Cursor → Except DecodeError (β × Cursor)}
    (step : ∀ c, read' c = do let (a, c) ← read c; pure (f a, c)) :
    Reads read' parts depth (f value) := by
  intro frame distance after holds
  rw [step, h frame distance after holds]
  rfl

/-- A part that stays among the heads is read if its body is read in place. -/
theorem flat {body : Bytes} (h : ∀ frame after,
    read ⟨frame, body ++ after, depth⟩ = .ok (value, ⟨frame, after, depth⟩)) :
    Reads read [⟨false, body⟩] depth value := by
  intro frame distance after _
  have heads : Part.heads distance [⟨false, body⟩] = body := by simp [Part.heads]
  rw [heads]
  exact h frame after

/-- A part that goes among the tails is read if its body is read where the distance leads. -/
theorem tailed {body : Bytes} (room : depth < maxFrames)
    (h : ∀ c next trailing, (body ++ trailing).length < UInt64.size →
      Cursor.follow c = .ok (⟨body ++ trailing, body ++ trailing, depth + 1⟩, next) →
      read c = .ok (value, next)) :
    Reads read [⟨true, body⟩] depth value := by
  intro frame distance after holds
  have heads : Part.heads distance [⟨true, body⟩] = wordOf distance := by simp [Part.heads]
  have tails : Part.tails [⟨true, body⟩] = body := by simp [Part.tails]
  have placed := holds rfl
  rw [tails] at placed
  obtain ⟨trailing, found⟩ := placed.found
  have small : (body ++ trailing).length < UInt64.size := by
    rw [found, List.length_drop]
    exact Nat.lt_of_le_of_lt (Nat.sub_le ..) placed.small
  have follow := Cursor.follow_append placed room after
  rw [← found] at follow
  rw [heads]
  exact h _ _ trailing small follow

theorem word (w : Word) (depth : Nat) : Reads Cursor.word [⟨false, Bytes.ofBits w⟩] depth w :=
  flat fun _ _ => Cursor.word_append w

/-- What comes first is read first, and what follows where it ended. -/
theorem cons {part : Part} {reads : Cursor → Except DecodeError (List α × Cursor)}
    {values : List α} (first : Reads read [part] depth value) (rest : Reads reads parts depth values) :
    Reads (fun c => do
      let (a, c) ← read c
      let (as, c) ← reads c
      pure (a :: as, c)) (part :: parts) depth (value :: values) := by
  intro frame distance after holds
  have head : Part.heads distance [part] = part.head distance := by
    rw [Part.heads_cons, Part.heads_nil, List.append_nil]
  have here : [part].any Part.tailed = true → Holds frame distance (Part.tails [part]) := by
    intro tailed
    rw [Part.tails_cons, Part.tails_nil, List.append_nil]
    refine (holds ?_).left
    rw [List.any_cons, List.any_nil, Bool.or_false] at tailed
    rw [List.any_cons, tailed, Bool.true_or]
  have there : parts.any Part.tailed = true →
      Holds frame (distance + part.tail.length) (Part.tails parts) := by
    intro tailed
    refine (holds ?_).right
    rw [List.any_cons, tailed, Bool.or_true]
  have hfirst := first frame distance
    (Part.heads (distance + part.tail.length) parts ++ after) here
  rw [head] at hfirst
  show read _ >>= _ = _
  rw [Part.heads_cons, List.append_assoc, hfirst]
  show reads _ >>= _ = _
  rw [rest frame _ after there]
  rfl

/-- In a frame of their own, parts are read where the frame starts. -/
theorem start (trailing : Bytes) {reads : Cursor → Except DecodeError (α × Cursor)}
    (h : Reads reads parts depth value)
    (small : parts.any Part.tailed = true → (Part.assemble parts ++ trailing).length < UInt64.size) :
    ∃ after, reads ⟨Part.assemble parts ++ trailing, Part.assemble parts ++ trailing, depth⟩ =
        .ok (value, ⟨Part.assemble parts ++ trailing, after, depth⟩) ∧
      (parts.any Part.tailed = false → after = trailing) := by
  have assembled : Part.assemble parts ++ trailing =
      Part.heads (Part.headsSize parts) parts ++ (Part.tails parts ++ trailing) := by
    rw [Part.assemble, List.append_assoc]
  refine ⟨Part.tails parts ++ trailing, ?_, ?_⟩
  · have holds : parts.any Part.tailed = true →
        Holds (Part.assemble parts ++ trailing) (Part.headsSize parts) (Part.tails parts) := by
      intro tailed
      refine ⟨small tailed, ?_, ?_⟩
      · rw [assembled, List.length_append, Part.length_heads]
        omega
      · rw [assembled, List.drop_left' (Part.length_heads ..)]
        exact List.prefix_append ..
    have := h _ (Part.headsSize parts) (Part.tails parts ++ trailing) holds
    rwa [← assembled] at this
  · intro flat
    rw [Part.tails_of_not_tailed flat, List.nil_append]

/-- Parts in a frame of their own are read as one part. -/
theorem framed {reads : Cursor → Except DecodeError (List Value × Cursor)} {values : List Value}
    (h : Reads reads parts (depth + 1) values) (room : depth < maxFrames) :
    Reads (framed (parts.any Part.tailed) reads) [⟨parts.any Part.tailed, Part.assemble parts⟩]
      depth values := by
  -- With tails the parts are read where a distance leads, without any in place.
  cases among : parts.any Part.tailed with
  | true =>
    refine tailed room fun c next trailing small follow => ?_
    obtain ⟨ended, hread, -⟩ := h.start trailing fun _ => small
    show c.follow >>= _ = _
    rw [follow]
    show reads _ >>= _ = _
    rw [hread]
    rfl
  | false =>
    refine flat fun frame after => ?_
    obtain ⟨ended, hread, left⟩ := h.start after fun hany => by
      rw [among] at hany
      cases hany
    rw [left among] at hread
    show Cursor.enter _ _ >>= _ = _
    rw [Cursor.enter_eq room]
    show reads _ >>= _ = _
    rw [hread]
    rfl

/-- A byte string is read after its length. -/
theorem sized (bytes : Bytes) (room : depth < maxFrames) :
    Reads Cursor.sized [⟨true, Abi.sized bytes⟩] depth bytes := by
  refine tailed room fun c next trailing small follow => ?_
  have padded : Abi.sized bytes ++ trailing = wordOf bytes.length ++
      (bytes ++ (List.replicate ((32 - bytes.length % 32) % 32) 0 ++ trailing)) := by
    rw [Abi.sized, Bytes.padRight, List.append_assoc, List.append_assoc]
  have short : bytes.length < UInt64.size := by
    refine Nat.lt_of_le_of_lt ?_ small
    rw [padded, List.length_append, List.length_append]
    omega
  rw [padded] at follow
  exact Cursor.sized_of_follow short follow

/-- Values read by the same reader are read after their number. -/
theorem listed {read : Cursor → Except DecodeError (Value × Cursor)} {values : List Value}
    {minWords : Nat} (room : depth + 1 < maxFrames)
    (h : Reads (repeated read values.length) parts (depth + 2) values)
    (spent : 0 < minWords)
    (least : 32 * (minWords * values.length) ≤ (Part.assemble parts).length) :
    Reads (listed minWords read) [⟨true, wordOf values.length ++ Part.assemble parts⟩] depth values := by
  refine tailed (by omega) fun c next trailing small follow => ?_
  rw [List.append_assoc] at small follow
  have count : values.length < UInt64.size := by
    have := Nat.le_mul_of_pos_left values.length spent
    rw [List.length_append, List.length_append] at small
    omega
  simp only [Abi.listed, follow, Except.ok_bind, Cursor.distance_append count]
  -- A list without elements is read without entering a frame for them.
  by_cases empty : values.length = 0
  · rw [if_pos empty, List.length_eq_zero_iff.mp empty]
    rfl
  · have enough : ¬ (Part.assemble parts ++ trailing).length / 32 < minWords * values.length := by
      rw [List.length_append]
      omega
    obtain ⟨ended, hread, -⟩ := h.start trailing fun _ => by
      rw [List.length_append] at small
      omega
    simp only [empty, if_false, Cursor.enter_eq room, Except.ok_bind, enough, hread]
    rfl

end Reads

end Abi

end OffchainNames
