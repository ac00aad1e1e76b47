import OffchainNames.Dispatch

/-!
# Calls in flight

The slots of a batch are in flight together. Each takes its operations one after the other, and while it is
held up, by the remote chain, by the store or by whatever else its function waits for, others take theirs. A
turn is one operation of one of them. It is named by its place: that of a slot in the batch, that of a slot in
the batch within, and so on.

A slot that is not held up takes all its operations before the next one takes its first. Where that is so for
all of them the turn is always that of the first slot that has not ended (`Flight.InOrder`), and carrying a
call out in flight is carrying its plan out (`Plan.course`).
-/

namespace OffchainNames

/-- A call in flight. -/
inductive Flight where
  | call (course : Course (Ending Response))
  | batch (signature : Abi.Signature) (slots : List Flight)

mutual

/-- A call when it starts. -/
def Plan.flight : Plan → Flight
  | .batch _ signature slots => .batch signature (flights slots)
  | .refused ctx cause => .call (refused ctx cause).course
  | .invoke ctx signature handler args => .call (invoke ctx signature handler args).course

/-- The slots of a batch when they start. -/
def Plan.flights : List Plan → List Flight
  | [] => []
  | plan :: rest => plan.flight :: flights rest

end

/-- A call that is dispatched in a context, when it starts. -/
def Table.flight (t : Table) (ctx : Context) : Flight := (t.plan ctx).flight

namespace Flight

mutual

/-- How a call has ended, if it has. A batch has ended when all its slots have. -/
def ending? : Flight → Option (Ending Response)
  | call (.done ending) => some ending
  | call _ => none
  | batch signature slots =>
    (endings? slots).map fun endings => (Outcome.ofSlots endings).ending signature

/-- How the slots of a batch have ended, if all of them have. -/
def endings? : List Flight → Option (List (Ending Response))
  | [] => some []
  | slot :: rest => slot.ending?.bind fun ending => (endings? rest).map (ending :: ·)

end

section

variable {σ : Type}

/-- One of many takes a turn, if there are so many. -/
def turnAt {α : Type} (turn : α → World σ → α × World σ) : Nat → List α → World σ → List α × World σ
  | _, [], w => ([], w)
  | 0, a :: rest, w =>
    let (a, w) := turn a w
    (a :: rest, w)
  | k + 1, a :: rest, w =>
    let (rest, w) := turnAt turn k rest w
    (a :: rest, w)

variable [Store σ]

/-- The call at a place takes its next operation. -/
def turn : List Nat → Flight → World σ → Flight × World σ
  | _, call course, w =>
    let (course, w) := course.step w
    (call course, w)
  | [], batch signature slots, w => (batch signature slots, w)
  | k :: place, batch signature slots, w =>
    let (slots, w) := turnAt (turn place) k slots w
    (batch signature slots, w)

/-- Turns are taken one after the other. -/
def after (flight : Flight) : List (List Nat) → World σ → Flight × World σ
  | [], w => (flight, w)
  | place :: turns, w => (flight.turn place w).1.after turns (flight.turn place w).2

end

mutual

/-- The place of the first call that has not ended. -/
def first? : Flight → Option (List Nat)
  | call (.done _) => none
  | call _ => some []
  | batch _ slots => (firstOf? slots).map fun (k, place) => k :: place

/-- The first slot that has not ended, and the place of the first such call in it. -/
def firstOf? : List Flight → Option (Nat × List Nat)
  | [] => none
  | slot :: rest =>
    match slot.first? with
    | some place => some (0, place)
    | none => (firstOf? rest).map fun (k, place) => (k + 1, place)

end

/-- No slot is held up: the turn is always that of the first call that has not ended. -/
def InOrder {σ : Type} [Store σ] (flight : Flight) : List (List Nat) → World σ → Prop
  | [], _ => True
  | place :: turns, w => flight.first? = some place ∧
    (flight.turn place w).1.InOrder turns (flight.turn place w).2

end Flight

end OffchainNames
