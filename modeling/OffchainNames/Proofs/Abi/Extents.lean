import OffchainNames.Proofs.Abi.Calls
import OffchainNames.Proofs.Dispatch.Batch

/-!
# How much is read from how many bytes

Decoding lets bodies overlap, so that what is read may be longer than what it is read from. But every
element of a list spends a word of its own, and every byte string stands in the data as it is: a list of
byte strings has at most one element for each 32 bytes, none of which is longer than the data
(`Abi.extents_of_decodeInput`). That the elements may all be one and the same body shows on data that
has one distance for each of them (`Abi.decodeInput_sharing`).
-/

namespace OffchainNames

namespace Abi

namespace Cursor

variable {c c' child : Cursor} {n : Nat}

theorem of_distance (h : c.distance = .ok (n, c')) :
    c'.frame = c.frame ∧ c'.rest.length + 32 = c.rest.length := by
  obtain ⟨⟨w, next⟩, hword, h⟩ := Except.bind_eq_ok_iff.mp h
  obtain ⟨long, -, rfl⟩ := word_eq_ok_iff.mp hword
  dsimp only at h
  split at h
  · cases h
    refine ⟨rfl, ?_⟩
    rw [List.length_drop]
    omega
  · cases h

theorem of_follow (h : c.follow = .ok (child, c')) :
    c'.frame = c.frame ∧ child.rest.length ≤ c.frame.length := by
  obtain ⟨⟨n, next⟩, hdistance, h⟩ := Except.bind_eq_ok_iff.mp h
  obtain ⟨frame, -⟩ := of_distance hdistance
  dsimp only at h
  split at h
  · cases h
  · split at h
    · cases h
    · cases h
      refine ⟨frame, ?_⟩
      rw [List.length_drop, frame]
      omega

theorem of_sized {content : Bytes} (h : c.sized = .ok (content, c')) :
    c'.frame = c.frame ∧ content.length ≤ c.frame.length := by
  obtain ⟨⟨child, next⟩, hfollow, h⟩ := Except.bind_eq_ok_iff.mp h
  obtain ⟨⟨size, body⟩, hsize, h⟩ := Except.bind_eq_ok_iff.mp h
  obtain ⟨frame, inside⟩ := of_follow hfollow
  obtain ⟨-, shorter⟩ := of_distance hsize
  dsimp only at h
  split at h
  · cases h
  · cases h
    refine ⟨frame, ?_⟩
    rw [List.length_take]
    omega

end Cursor

/-- Byte strings that are read one after the other are as many as asked for, and none is longer than the
frame. -/
theorem extents_of_repeated {count : Nat} {c c' : Cursor} {values : List Value}
    (h : repeated Ty.bytes.decode count c = .ok (values, c')) :
    ∃ contents : List Bytes, values = contents.map .bytes ∧ contents.length = count ∧
      ∀ content ∈ contents, content.length ≤ c.frame.length := by
  induction count generalizing c values with
  | zero =>
    cases h
    exact ⟨[], rfl, rfl, fun content member => absurd member List.not_mem_nil⟩
  | succ count ih =>
    rw [repeated, Except.bind_eq_ok_iff] at h
    obtain ⟨⟨first, next⟩, hfirst, h⟩ := h
    obtain ⟨⟨rest, last⟩, hrest, h⟩ := Except.bind_eq_ok_iff.mp h
    cases h
    rw [Ty.decode, Except.bind_eq_ok_iff] at hfirst
    obtain ⟨⟨content, next'⟩, hsized, hfirst⟩ := hfirst
    cases hfirst
    obtain ⟨frame, inside⟩ := Cursor.of_sized hsized
    obtain ⟨contents, rfl, length, each⟩ := ih hrest
    refine ⟨content :: contents, rfl, by rw [List.length_cons, length], ?_⟩
    intro other member
    rcases List.mem_cons.mp member with rfl | member
    · exact inside
    · rw [← frame]
      exact each other member

/-- A list of byte strings has an element for each 32 bytes of the frame at most, and none is longer than
the frame. -/
theorem extents_of_listed {c c' : Cursor} {values : List Value}
    (h : listed 1 Ty.bytes.decode c = .ok (values, c')) :
    ∃ contents : List Bytes, values = contents.map .bytes ∧
      32 * contents.length ≤ c.frame.length ∧
      ∀ content ∈ contents, content.length ≤ c.frame.length := by
  rw [listed, Except.bind_eq_ok_iff] at h
  obtain ⟨⟨child, next⟩, hfollow, h⟩ := h
  obtain ⟨⟨count, body⟩, hcount, h⟩ := Except.bind_eq_ok_iff.mp h
  obtain ⟨-, inside⟩ := Cursor.of_follow hfollow
  obtain ⟨-, shorter⟩ := Cursor.of_distance hcount
  dsimp only at h
  split at h
  · cases h
    exact ⟨[], rfl, Nat.zero_le _, fun content member => absurd member List.not_mem_nil⟩
  · obtain ⟨inner, henter, h⟩ := Except.bind_eq_ok_iff.mp h
    have frame : inner.frame = body.rest ∧ inner.rest = body.rest := by
      unfold Cursor.enter at henter
      split at henter
      · cases henter
      · cases henter
        exact ⟨rfl, rfl⟩
    split at h
    · cases h
    · rename_i enough
      obtain ⟨⟨values', last⟩, hread, h⟩ := Except.bind_eq_ok_iff.mp h
      cases h
      obtain ⟨contents, rfl, length, each⟩ := extents_of_repeated hread
      rw [frame.2] at enough
      rw [frame.1] at each
      refine ⟨contents, rfl, by omega, ?_⟩
      intro content member
      have := each content member
      omega

end Abi

/-- The calls of a batch are one for each 32 bytes of its arguments at most, and none is longer than
these. -/
theorem Abi.extents_of_decodeInput {payload : Bytes} {args : Arguments} {calls : List Bytes}
    (read : Signature.multicall.decodeInput payload = .ok args)
    (holds : Arguments.bytesArray args 0 = .ok calls) :
    32 * calls.length ≤ payload.length ∧ ∀ call ∈ calls, call.length ≤ payload.length := by
  obtain ⟨ty, value, next, tail, resolved, hvalue, -, rfl⟩ :=
    readAll_cons_eq_ok_iff.mp (Signature.decodeInput_eq_ok_iff.mp read)
  obtain rfl : ty = .array .bytes :=
    Except.ok.inj (resolved.symm.trans (Param.resolve_bytesArray "data"))
  rw [Ty.decode, Except.bind_eq_ok_iff] at hvalue
  obtain ⟨⟨values, next'⟩, hvalues, hvalue⟩ := hvalue
  cases hvalue
  obtain ⟨contents, rfl, count, each⟩ := extents_of_listed hvalues
  obtain rfl : calls = contents :=
    Except.ok.inj (holds.symm.trans (Arguments.elements_map 0 contents))
  exact ⟨count, each⟩

namespace Abi

/-- The arguments of a batch whose calls are one and the same: after the distance of the list and its
length there is a distance for each of them, and all lead to the same body. -/
def sharing (count : Nat) (content : Bytes) : Bytes :=
  wordOf 32 ++ (wordOf count ++ ((List.replicate count (wordOf (32 * count))).flatten ++
    (wordOf content.length ++ content)))

theorem length_wordOf (n : Nat) : (wordOf n).length = 32 := by
  simp [wordOf]

theorem length_distances (count n : Nat) :
    (List.replicate count (wordOf n)).flatten.length = 32 * count := by
  rw [List.length_flatten, List.map_replicate, length_wordOf, List.sum_replicate_nat, Nat.mul_comm]

theorem length_sharing (count : Nat) (content : Bytes) :
    (sharing count content).length = 96 + 32 * count + content.length := by
  simp only [sharing, List.length_append, length_wordOf, length_distances]
  omega

/-- Each distance is followed to the body. -/
theorem repeated_sharing {frame content rest : Bytes} {count distance depth : Nat}
    (placed : Holds frame distance (wordOf content.length ++ content)) (room : depth < maxFrames) :
    repeated Ty.bytes.decode count
        ⟨frame, (List.replicate count (wordOf distance)).flatten ++ rest, depth⟩ =
      .ok ((List.replicate count content).map .bytes, ⟨frame, rest, depth⟩) := by
  have short : content.length < UInt64.size := by
    obtain ⟨after, found⟩ := placed.found
    have long := congrArg List.length found
    rw [List.length_append, List.length_append, List.length_drop] at long
    have := placed.small
    omega
  obtain ⟨after, found⟩ := placed.found
  induction count with
  | zero => rfl
  | succ count ih =>
    have follow := Cursor.follow_append placed room
      ((List.replicate count (wordOf distance)).flatten ++ rest)
    rw [← found, List.append_assoc] at follow
    rw [List.replicate_succ, List.flatten_cons, List.append_assoc, repeated, Ty.decode,
      Cursor.sized_of_follow short follow, List.replicate_succ, List.map_cons]
    show repeated _ _ _ >>= _ = _
    rw [ih]
    rfl

theorem listed_sharing {count : Nat} {content : Bytes}
    (short : (sharing count content).length < UInt64.size) :
    listed 1 Ty.bytes.decode (Cursor.start (sharing count content)) =
      .ok ((List.replicate count content).map .bytes,
        ⟨sharing count content, (sharing count content).drop 32, 0⟩) := by
  have long := length_sharing count content
  obtain ⟨body, hbody⟩ : ∃ body, body = (List.replicate count (wordOf (32 * count))).flatten ++
      (wordOf content.length ++ content) := ⟨_, rfl⟩
  have data : sharing count content = wordOf 32 ++ (wordOf count ++ body) := by
    rw [hbody]
    rfl
  have length : body.length = 32 * count + 32 + content.length := by
    rw [hbody, List.length_append, List.length_append, length_distances, length_wordOf]
    omega
  have child : (sharing count content).drop 32 = wordOf count ++ body := by
    rw [data, List.drop_left' (length_wordOf 32)]
  have placed : Holds (sharing count content) 32 (wordOf count ++ body) :=
    ⟨short, by omega, ⟨[], by rw [child, List.append_nil]⟩⟩
  have shared : body.drop (32 * count) = wordOf content.length ++ content := by
    rw [hbody, List.drop_left' (length_distances ..)]
  have bodyPlaced : Holds body (32 * count) (wordOf content.length ++ content) :=
    ⟨by omega, by omega, ⟨[], by rw [shared, List.append_nil]⟩⟩
  have follow := Cursor.follow_append placed (by decide : 0 < maxFrames) (wordOf count ++ body)
  rw [← data] at follow
  have fits : count < UInt64.size := by omega
  rw [listed, Cursor.start, follow, child]
  simp only [Except.ok_bind, Cursor.distance_append fits]
  by_cases none : count = 0
  · rw [if_pos none, none]
    rfl
  · have enough : ¬ body.length / 32 < 1 * count := by omega
    have read : repeated Ty.bytes.decode count ⟨body, body, 2⟩ =
        .ok ((List.replicate count content).map .bytes,
          ⟨body, wordOf content.length ++ content, 2⟩) := by
      rw [← repeated_sharing bodyPlaced (by decide : 2 < maxFrames), ← hbody]
    rw [if_neg none, Cursor.enter_eq (by decide)]
    simp only [Except.ok_bind, if_neg enough, read]
    rfl

/-- Data with one distance for each of the calls of a batch, all to the same body, is read as that many
calls. -/
theorem decodeInput_sharing {count : Nat} {content : Bytes}
    (short : (sharing count content).length < UInt64.size) :
    Signature.multicall.decodeInput (sharing count content) =
      .ok [.array ((List.replicate count content).map .bytes)] := by
  have decoded : (Ty.array .bytes).decode (Cursor.start (sharing count content)) =
      .ok (.array ((List.replicate count content).map .bytes),
        ⟨sharing count content, (sharing count content).drop 32, 0⟩) := by
    rw [Ty.decode]
    show listed 1 _ _ >>= _ = _
    rw [listed_sharing short]
    rfl
  exact Signature.decodeInput_eq_ok_iff.mpr (readAll_cons_eq_ok_iff.mpr
    ⟨_, _, _, [], Param.resolve_bytesArray "data", decoded, rfl, rfl⟩)

end Abi

end OffchainNames
