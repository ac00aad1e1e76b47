import OffchainNames.Gateway

/-!
# Marking of written records

After a successful call that wrote to a node, the record of the node is marked with its fingerprint. Which node that
was is read off the calldata: the selectors of functions that write are tracked, and the first argument
of such a function is the node; of the calls in a batch the last one counts. Some functions also answer
with the node and the marker, if they are called directly.
-/

namespace OffchainNames

/-- Which functions write. -/
structure Integrity where
  /-- The selectors of functions that write. -/
  tracked : List Selector := []
  /-- The selectors of functions that answer with the node and the marker. -/
  embedded : List Selector := []

namespace Integrity

/-- Tracks a function too. -/
def track (i : Integrity) (selector : Selector) : Integrity :=
  { i with tracked := i.tracked ++ [selector] }

/-- Tracks a function too, and has it answer with the node and the marker. -/
def embed (i : Integrity) (selector : Selector) : Integrity :=
  { tracked := i.tracked ++ [selector], embedded := i.embedded ++ [selector] }

/-- The word that bytes start with. -/
def firstWord? (payload : Bytes) : Option Word :=
  if payload.length < 32 then none else some (Bytes.toBits 256 (payload.take 32))

/-- The node that calldata writes to, if batches may be opened the given number of times. -/
def affectedAt (i : Integrity) : (levels : Nat) → Bytes → Option Word
  | levels, data =>
    match splitSelector data with
    | .error _ => none
    | .ok (selector, payload) =>
      if i.tracked.contains selector then firstWord? payload
      else if selector ≠ Abi.Signature.multicall.selector then none
      else
        match levels with
        | 0 => none
        | levels + 1 =>
          match Abi.Signature.multicall.decodeInput payload with
          | .error _ => none
          | .ok args =>
            match Arguments.bytesArray args 0 with
            | .error _ => none
            | .ok calls => calls.reverse.findSome? fun data => affectedAt i levels data

/-- The node that calldata writes to. -/
def affected (i : Integrity) (data : Bytes) : Option Word := i.affectedAt maxBatches data

/-- Whether calldata directly calls a function that answers with the node and the marker. -/
def embeds (i : Integrity) (data : Bytes) : Bool :=
  match splitSelector data with
  | .ok (selector, _) => i.embedded.contains selector
  | .error _ => false

/-- The response after a node was marked. -/
def respond (i : Integrity) (call : Call) (response : Response) (node marker : Word) : Response :=
  if i.embeds call.data then .ok (Bytes.ofBits node ++ Bytes.ofBits marker) response.ttl
  else response

/-- Marks the record of a node. -/
def mark (i : Integrity) (call : Call) (response : Response) (node : Word) :
    Course (Except Error Response) :=
  .domain node fun
    | .error e => .done (.error (.signing ("integrity lookup failed: " ++ e.message)))
    | .ok none => .done (.ok response)
    | .ok (some record) =>
      .change (.setMarker node record.fingerprint) fun
        | .error e => .done (.error (.signing ("integrity update failed: " ++ e.message)))
        | .ok () => .done (.ok (i.respond call response node record.fingerprint))

/-- Marks the record that a successful call wrote to. -/
def process (i : Integrity) (call : Call) (response : Response) : Course (Except Error Response) :=
  if response.isSuccess then
    match i.affected call.data with
    | none => .done (.ok response)
    | some node => i.mark call response node
  else .done (.ok response)

/-- The stage that marks written records. -/
def stage (i : Integrity) : Stage :=
  ⟨"integrity", fun call response => (i.process call response).bind fun r => .done (.answered r)⟩

end Integrity

end OffchainNames
