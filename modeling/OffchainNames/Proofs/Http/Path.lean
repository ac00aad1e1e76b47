import Mathlib.Data.List.TakeWhile
import OffchainNames.Http.Server
import OffchainNames.Proofs.Namehash
import OffchainNames.Proofs.Text.Utf8

/-!
# Paths without marks

A text of unreserved characters goes through a path as it is: nothing in it ends the path, splits it or
is resolved (`Http.decode?_resolvePercent`). Two such texts behind the root are the open places of the
pattern by which calls are fetched (`Http.Server.endpoint?_parts`).
-/

namespace OffchainNames

namespace Http

/-- A character that may stand anywhere in a path without a mark. -/
def isUnreserved (c : Char) : Bool := c.isAlphanum || "-._~".toList.contains c

section Unreserved

variable {cs : List Char}

theorem not_mem_of_unreserved (unreserved : ∀ c ∈ cs, isUnreserved c = true) {c : Char}
    (reserved : isUnreserved c = false) : c ∉ cs := by
  intro member
  rw [unreserved c member] at reserved
  cases reserved

/-- Characters without a percent sign stand for themselves. -/
theorem resolvePercent_of_not_mem (absent : '%' ∉ cs) :
    resolvePercent cs = cs.flatMap String.utf8EncodeChar := by
  fun_induction resolvePercent cs with
  | case1 c a b rest high low _ _ percent ih =>
    rw [beq_iff_eq] at percent
    exact absurd (percent ▸ List.mem_cons_self ..) absent
  | case2 c a b rest _ ih =>
    rw [ih fun later => absent (List.mem_cons_of_mem _ later)]
    exact (List.flatMap_cons ..).symm
  | case3 cs short => rfl

theorem decode?_resolvePercent (absent : '%' ∉ cs) :
    Utf8.decode? (resolvePercent cs) = some (String.ofList cs) := by
  have bytes : resolvePercent cs = Bytes.ofString (String.ofList cs) := by
    rw [resolvePercent_of_not_mem absent, Bytes.ofString, String.toList_ofList]
  rw [bytes, Utf8.decode?_ofString]

end Unreserved

theorem pathOf_of_plain {target : String} (plain : ∀ c ∈ target.toList, c ≠ '?' ∧ c ≠ '#') :
    pathOf target = target.toList := by
  refine List.takeWhile_eq_self_iff.mpr fun c member => ?_
  obtain ⟨query, fragment⟩ := plain c member
  simp [query, fragment]

theorem withoutExtension_append (text : String) : withoutExtension (text ++ ".json") = text := by
  have ends : (".json".toList.reverse).isPrefixOf (text ++ ".json").toList.reverse = true := by
    rw [List.isPrefixOf_iff_prefix, List.reverse_prefix, String.toList_append]
    exact List.suffix_append ..
  unfold withoutExtension
  rw [ends]
  simp

theorem withoutExtension_of_not_suffix {text : String} (h : ¬ ".json".toList <:+ text.toList) :
    withoutExtension text = text := by
  have ends : (".json".toList.reverse).isPrefixOf text.toList.reverse = false := by
    rw [Bool.eq_false_iff]
    intro found
    rw [List.isPrefixOf_iff_prefix, List.reverse_prefix] at found
    exact h found
  unfold withoutExtension
  rw [ends]

namespace Server

variable {s : Server}

theorem below_of_root (root : s.mount = "" ∨ s.mount = "/") (path : List Char) :
    below s.mount.toList path = path := by
  rcases root with root | root <;> rw [root] <;> rfl

theorem endpoint?_root (root : s.mount = "" ∨ s.mount = "/") :
    s.endpoint? ['/'] = some (.submit, []) := by
  simp only [endpoint?, below_of_root root]
  rfl

/-- Two parts of a path are the open places of the pattern by which calls are fetched. -/
theorem endpoint?_parts (root : s.mount = "" ∨ s.mount = "/") {sender data : List Char}
    (senderWhole : '/' ∉ sender) (dataWhole : '/' ∉ data) (senderSome : sender ≠ [])
    (dataSome : data ≠ []) :
    s.endpoint? ('/' :: (sender ++ '/' :: data)) = some (.fetch, [sender, data]) := by
  have split : parts ('/' :: (sender ++ '/' :: data)) = [[], sender, data] := by
    have first : splitAtEach '/' ([] ++ '/' :: (sender ++ '/' :: data)) =
        [] :: splitAtEach '/' (sender ++ '/' :: data) :=
      splitAtEach_append List.not_mem_nil _
    rw [parts, ← List.nil_append ('/' :: _), first, splitAtEach_append senderWhole,
      splitAtEach_of_not_mem dataWhole]
  have submit : matchPattern? Endpoint.submit.pattern ('/' :: (sender ++ '/' :: data)) = none := by
    -- This pattern has two parts, both of them empty.
    have pieces : (parts Endpoint.submit.pattern).map Piece.ofPart = [⟨[], false⟩, ⟨[], false⟩] := rfl
    simp [matchPattern?, split, pieces, matchPieces, Piece.match?, senderSome]
  have fetch : matchPattern? Endpoint.fetch.pattern ('/' :: (sender ++ '/' :: data)) =
      some [sender, data] := by
    have pieces : (parts Endpoint.fetch.pattern).map Piece.ofPart =
        [⟨[], false⟩, ⟨[], true⟩, ⟨[], true⟩] := rfl
    simp [matchPattern?, split, pieces, matchPieces, Piece.match?, dataSome]
  simp [endpoint?, below_of_root root, submit, fetch]

end Server

end Http

end OffchainNames
