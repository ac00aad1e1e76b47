import OffchainNames.Hash.Keccak

/-!
# Nodes of names

A name is a list of labels with dots between them. Its node is the digest of the node of the name
without the first label and the digest of that label; the empty name has the zero node.
-/

namespace OffchainNames

/-- The node of a label under the node of the rest of a name. -/
def childNode (parent : Word) (label : List Char) : Word :=
  keccak256 (Bytes.ofBits parent ++ Bytes.ofBits (keccak256 (Bytes.ofString (String.ofList label))))

/-- The parts of a list between the elements that are equal to a given one. -/
def splitAtEach (sep : α) [DecidableEq α] : List α → List (List α)
  | [] => [[]]
  | a :: rest =>
    if a = sep then [] :: splitAtEach sep rest
    else
      match splitAtEach sep rest with
      | first :: parts => (a :: first) :: parts
      | [] => [[a]]

/-- The node of a name given by its labels. -/
def nodeOfLabels (labels : List (List Char)) : Word :=
  labels.foldr (fun label parent => childNode parent label) 0

/-- The node of a name. -/
def namehash (name : String) : Word :=
  if name = "" then 0 else nodeOfLabels (splitAtEach '.' name.toList)

end OffchainNames
