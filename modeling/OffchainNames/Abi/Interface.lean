import OffchainNames.Calldata

/-!
# Interfaces

An interface is a set of signatures, at most one for each selector.
-/

namespace OffchainNames

namespace Abi

/-- Signatures by their selectors. -/
structure Interface where
  functions : SortedMap Selector Signature := ∅

namespace Interface

/-- The interface without a signature. -/
def empty : Interface := {}

/-- The interface with one more signature, which takes the place of another one with its selector. -/
def insert (i : Interface) (sig : Signature) : Interface := ⟨i.functions.insert sig.selector sig⟩

/-- The signature with a selector. -/
def get? (i : Interface) (selector : Selector) : Option Signature := i.functions[selector]?

/-- The signatures in the order of their selectors. -/
def toList (i : Interface) : List Signature := i.functions.toList.map Prod.snd

/-- The signature with a canonical text. -/
def byCanonical? (i : Interface) (canonical : String) : Option Signature :=
  i.toList.find? fun sig => sig.canonical == canonical

/-- The number of signatures. -/
def size (i : Interface) : Nat := i.functions.size

/-- The interface of signatures, of which a later one wins over an earlier one. -/
def ofList (sigs : List Signature) : Interface := sigs.foldl insert empty

/-- The interface of the signatures that fragments write. -/
def ofFragments (fragments : List String) : Except Error Interface :=
  (fragments.mapM Signature.ofFragment).map ofList

end Interface

end Abi

end OffchainNames
