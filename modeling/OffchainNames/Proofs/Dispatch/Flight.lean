import Mathlib.Data.List.Forall2
import Mathlib.Logic.Relation
import OffchainNames.Flight
import OffchainNames.Proofs.Dispatch.Batch

/-!
# Turns of calls in flight

A turn of the first call that has not ended changes nothing about how all of them end
(`Flight.run_turn_of_first`). So where no slot is held up, a call in flight ends as its plan is carried out, and
leaves the same world (`Flight.run_of_inOrder`). In whatever order the slots of a batch take their turns, each
goes on from where it started (`Flight.Becomes.of_batch`), turns can always be taken until all have ended
(`Flight.exists_inOrder`), and the batch is then answered with what its slots are answered with
(`Flight.exists_ofBatch`).
-/

namespace OffchainNames

namespace Course

variable {σ ρ τ : Type} [Store σ]

variable (σ) in
/-- A course comes from another by steps, whatever the world was like at each of them. -/
def Becomes : Course ρ → Course ρ → Prop :=
  Relation.ReflTransGen fun a b => ∃ w : World σ, b = (a.step w).1

theorem Becomes.of_done {answer : ρ} {c : Course ρ} (h : Becomes σ (done answer) c) :
    c = done answer := by
  induction h with
  | refl => rfl
  | tail _ step ih =>
    obtain ⟨w, rfl⟩ := step
    rw [ih, step]

theorem Becomes.of_bind {f : ρ → τ} {c : Course ρ} {d : Course τ}
    (h : Becomes σ (c.bind fun answer => done (f answer)) d) :
    ∃ c', d = c'.bind (fun answer => done (f answer)) ∧ Becomes σ c c' := by
  induction h with
  | refl => exact ⟨c, rfl, .refl⟩
  | tail _ step ih =>
    obtain ⟨c', rfl, become⟩ := ih
    obtain ⟨w, rfl⟩ := step
    exact ⟨(c'.step w).1, by cases c' <;> rfl, become.tail ⟨w, rfl⟩⟩

/-- Running a course is one way to take its steps. -/
theorem becomes_run (c : Course ρ) (w : World σ) : Becomes σ c (done (c.run w).1) := by
  induction c generalizing w with
  | done answer => exact .refl
  | domain node next ih => exact .head ⟨w, rfl⟩ (ih (Store.domain w.store node) w)
  | change c next ih => exact .head ⟨w, rfl⟩ (ih (w.apply c).1 (w.apply c).2)
  | ask contract data next ih => exact .head ⟨w, rfl⟩ (ih w.ask.1 w.ask.2)
  | clock next ih => exact .head ⟨w, rfl⟩ (ih w.now w)

end Course

namespace Flight

/-- Induction on calls in flight: a property of the slots of a batch has to carry over to the batch. -/
@[elab_as_elim]
theorem induction {motive : Flight → Prop} (call : ∀ course, motive (.call course))
    (batch : ∀ signature slots, (∀ slot ∈ slots, motive slot) → motive (.batch signature slots))
    (flight : Flight) : motive flight := by
  refine Flight.rec (motive_1 := motive) (motive_2 := fun slots => ∀ slot ∈ slots, motive slot)
    call batch ?_ ?_ flight
  · intro slot member
    cases member
  · intro first rest hfirst hrest slot member
    rcases List.mem_cons.mp member with rfl | member
    · exact hfirst
    · exact hrest slot member

mutual

/-- What a call in flight does from now on if no slot is held up. -/
def course : Flight → Course (Ending Response)
  | call course => course
  | batch signature slots =>
    (courses slots).bind fun endings => .done ((Outcome.ofSlots endings).ending signature)

/-- What the slots of a batch do from now on if none is held up. -/
def courses : List Flight → Course (List (Ending Response))
  | [] => .done []
  | slot :: rest =>
    slot.course.bind fun ending =>
      (courses rest).bind fun endings => .done (ending :: endings)

end

theorem courses_flights {plans : List Plan} (each : ∀ plan ∈ plans, plan.flight.course = plan.course) :
    courses (Plan.flights plans) = Plan.courses plans := by
  induction plans with
  | nil => rw [Plan.flights, courses, Plan.courses]
  | cons plan rest ih =>
    obtain ⟨first, each⟩ := List.forall_mem_cons.mp each
    rw [Plan.flights, courses, Plan.courses, first, ih each]

/-- A call that starts does what its plan is. -/
theorem course_flight (plan : Plan) : plan.flight.course = plan.course := by
  induction plan using Plan.induction with
  | refused ctx cause => rw [Plan.flight, course]
  | invoke ctx signature handler args => rw [Plan.flight, course]
  | batch ctx signature slots ih => rw [Plan.flight, course, Plan.course, courses_flights ih]

theorem flights_eq_map (plans : List Plan) : Plan.flights plans = plans.map Plan.flight := by
  induction plans with
  | nil => rfl
  | cons plan rest ih => rw [Plan.flights, List.map_cons, ih]

/-! ## Ends -/

theorem endings?_eq_some_iff {slots : List Flight} {endings : List (Ending Response)} :
    endings? slots = some endings ↔ slots.map ending? = endings.map some := by
  induction slots generalizing endings with
  | nil => cases endings <;> simp [endings?]
  | cons slot rest ih =>
    simp only [endings?, Option.bind_eq_some_iff, Option.map_eq_some_iff, List.map_cons]
    constructor
    · rintro ⟨ending, first, others, hrest, rfl⟩
      rw [first, ih.mp hrest, List.map_cons]
    · intro h
      cases endings with
      | nil => cases h
      | cons ending others =>
        obtain ⟨first, hrest⟩ := List.cons.inj h
        exact ⟨ending, first, others, ih.mpr hrest, rfl⟩

/-- The slots of a batch have ended iff each of them has. -/
theorem exists_endings?_iff {slots : List Flight} : (∃ endings, endings? slots = some endings) ↔
    ∀ slot ∈ slots, ∃ ending, slot.ending? = some ending := by
  induction slots with
  | nil => simp [endings?]
  | cons slot rest ih =>
    rw [List.forall_mem_cons, ← ih]
    constructor
    · rintro ⟨endings, h⟩
      obtain ⟨ending, first, h⟩ := Option.bind_eq_some_iff.mp h
      obtain ⟨others, hrest, -⟩ := Option.map_eq_some_iff.mp h
      exact ⟨⟨ending, first⟩, others, hrest⟩
    · rintro ⟨⟨ending, first⟩, others, hrest⟩
      exact ⟨ending :: others, by rw [endings?, first, hrest]; rfl⟩

theorem firstOf?_eq_none_iff {slots : List Flight} :
    firstOf? slots = none ↔ ∀ slot ∈ slots, slot.first? = none := by
  induction slots with
  | nil => simp [firstOf?]
  | cons slot rest ih =>
    rw [firstOf?, List.forall_mem_cons]
    cases slot.first? with
    | none => simp [ih]
    | some place => simp

/-- A call has ended iff no call in it is the first that has not. -/
theorem first?_eq_none_iff {flight : Flight} :
    flight.first? = none ↔ ∃ ending, flight.ending? = some ending := by
  induction flight using Flight.induction with
  | call course => cases course <;> simp [first?, ending?]
  | batch signature slots ih =>
    have each : firstOf? slots = none ↔ ∃ endings, endings? slots = some endings := by
      rw [firstOf?_eq_none_iff, exists_endings?_iff]
      exact forall₂_congr ih
    rw [first?, Option.map_eq_none_iff, each]
    simp only [ending?, Option.map_eq_some_iff]
    constructor
    · rintro ⟨endings, h⟩
      exact ⟨_, endings, h, rfl⟩
    · rintro ⟨-, endings, h, -⟩
      exact ⟨endings, h⟩

section Turns

variable {σ : Type} [Store σ] {flight : Flight} {place : List Nat} {w : World σ}

theorem after_done (ending : Ending Response) (turns : List (List Nat)) (w : World σ) :
    (call (.done ending)).after turns w = (call (.done ending), w) := by
  induction turns with
  | nil => rfl
  | cons place turns ih =>
    have still : turn place (call (.done ending)) w = (call (.done ending), w) := by cases place <;> rfl
    rw [after, still, ih]

theorem run_courses_of_ended {slots : List Flight}
    (each : ∀ slot ∈ slots, ∀ {ending}, slot.ending? = some ending → slot.course.run w = (ending, w))
    {endings : List (Ending Response)} (ended : endings? slots = some endings) :
    (courses slots).run w = (endings, w) := by
  induction slots generalizing endings with
  | nil =>
    cases ended
    rw [courses, Course.run_done]
  | cons slot rest ih =>
    obtain ⟨ending, here, h⟩ := Option.bind_eq_some_iff.mp (by simpa only [endings?] using ended)
    obtain ⟨others, hrest, rfl⟩ := Option.map_eq_some_iff.mp h
    obtain ⟨first, each⟩ := List.forall_mem_cons.mp each
    simp only [courses, Course.run_bind, first here, ih each hrest, Course.run_done]

/-- What has ended does nothing any more. -/
theorem run_of_ended {ending : Ending Response} (ended : flight.ending? = some ending) (w : World σ) :
    flight.course.run w = (ending, w) := by
  induction flight using Flight.induction generalizing ending with
  | call course =>
    cases course with
    | done answer =>
      cases ended
      rw [Flight.course, Course.run_done]
    | domain | change | ask | clock => cases ended
  | batch signature slots ih =>
    obtain ⟨endings, h, rfl⟩ := Option.map_eq_some_iff.mp (by simpa only [ending?] using ended)
    simp only [course, Course.run_bind, run_courses_of_ended ih h, Course.run_done]

theorem run_courses_turnAt {slots : List Flight}
    (each : ∀ slot ∈ slots, ∀ {place} {w : World σ}, slot.first? = some place →
      (slot.turn place w).1.course.run (slot.turn place w).2 = slot.course.run w)
    {k : Nat} (first : firstOf? slots = some (k, place)) :
    (courses (turnAt (turn place) k slots w).1).run (turnAt (turn place) k slots w).2 =
      (courses slots).run w := by
  induction slots generalizing k with
  | nil => cases first
  | cons slot rest ih =>
    obtain ⟨firstTurn, each⟩ := List.forall_mem_cons.mp each
    rw [firstOf?] at first
    cases here : slot.first? with
    | some place' =>
      rw [here] at first
      cases first
      simp only [turnAt, courses, Course.run_bind, firstTurn here]
    | none =>
      rw [here] at first
      obtain ⟨⟨k, place'⟩, hrest, h⟩ := Option.map_eq_some_iff.mp first
      cases h
      obtain ⟨ending, ended⟩ := first?_eq_none_iff.mp here
      simp only [turnAt, courses, Course.run_bind, run_of_ended ended, ih each hrest]

/-- A turn of the first call that has not ended is what comes next if no slot is held up. -/
theorem run_turn_of_first (first : flight.first? = some place) :
    (flight.turn place w).1.course.run (flight.turn place w).2 = flight.course.run w := by
  induction flight using Flight.induction generalizing place w with
  | call course =>
    simp only [turn, Flight.course, Course.run_step]
  | batch signature slots ih =>
    obtain ⟨⟨k, place⟩, hfirst, rfl⟩ := Option.map_eq_some_iff.mp (by simpa only [first?] using first)
    simp only [turn, course, Course.run_bind, run_courses_turnAt ih hfirst]

/-- Where no slot is held up, a call ends as it does when nothing comes in between, and leaves the same
world. -/
theorem run_of_inOrder {turns : List (List Nat)} {ending : Ending Response}
    (inOrder : flight.InOrder turns w) (ended : (flight.after turns w).1.ending? = some ending) :
    flight.course.run w = (ending, (flight.after turns w).2) := by
  induction turns generalizing flight w with
  | nil => exact run_of_ended ended w
  | cons place turns ih =>
    obtain ⟨first, inOrder⟩ := inOrder
    rw [← run_turn_of_first first]
    exact ih inOrder ended

/-! ## Turns until the end -/

theorem after_append (flight : Flight) (first rest : List (List Nat)) (w : World σ) :
    flight.after (first ++ rest) w =
      (flight.after first w).1.after rest (flight.after first w).2 := by
  induction first generalizing flight w with
  | nil => rfl
  | cons place first ih => exact ih _ _

theorem InOrder.append {first rest : List (List Nat)} (before : flight.InOrder first w)
    (later : (flight.after first w).1.InOrder rest (flight.after first w).2) :
    flight.InOrder (first ++ rest) w := by
  induction first generalizing flight w with
  | nil => exact later
  | cons place first ih => exact ⟨before.1, ih before.2 later⟩

variable {signature : Abi.Signature} {slot : Flight} {rest : List Flight} {turns : List (List Nat)}

/-- The turns of the first slot are turns of the batch. -/
theorem InOrder.of_slot (signature : Abi.Signature) (rest : List Flight) (inOrder : slot.InOrder turns w) :
    (batch signature (slot :: rest)).InOrder (turns.map (0 :: ·)) w ∧
      (batch signature (slot :: rest)).after (turns.map (0 :: ·)) w =
        (batch signature ((slot.after turns w).1 :: rest), (slot.after turns w).2) := by
  induction turns generalizing slot w with
  | nil => exact ⟨trivial, rfl⟩
  | cons place turns ih =>
    obtain ⟨first, inOrder⟩ := inOrder
    obtain ⟨later, after⟩ := ih inOrder
    refine ⟨⟨?_, later⟩, after⟩
    rw [first?, firstOf?, first]
    rfl

/-- When the first slot has ended, the turns of the others are turns of the batch. -/
theorem InOrder.of_rest {ending : Ending Response} (gone : slot.first? = none)
    (inOrder : (batch signature rest).InOrder turns w)
    (ended : ((batch signature rest).after turns w).1.ending? = some ending) :
    ∃ turns', (batch signature (slot :: rest)).InOrder turns' w ∧
      ∃ ending', ((batch signature (slot :: rest)).after turns' w).1.ending? = some ending' := by
  induction turns generalizing rest w with
  | nil =>
    refine ⟨[], trivial, first?_eq_none_iff.mp ?_⟩
    have others : firstOf? rest = none := by
      have h := first?_eq_none_iff.mpr ⟨ending, ended⟩
      rwa [after, first?, Option.map_eq_none_iff] at h
    rw [after, first?, firstOf?, gone, others]
    rfl
  | cons place turns ih =>
    obtain ⟨first, inOrder⟩ := inOrder
    obtain ⟨⟨k, place⟩, hfirst, rfl⟩ := Option.map_eq_some_iff.mp (by simpa only [first?] using first)
    obtain ⟨turns', later, ended'⟩ := ih inOrder ended
    refine ⟨((k + 1) :: place) :: turns', ⟨?_, later⟩, ended'⟩
    rw [first?, firstOf?, gone, hfirst]
    rfl

/-- A course takes one turn for each operation until it has ended. -/
theorem exists_inOrder_call (course : Course (Ending Response)) (w : World σ) :
    ∃ turns, (call course).InOrder turns w ∧
      ∃ ending, ((call course).after turns w).1.ending? = some ending := by
  induction course generalizing w with
  | done ending => exact ⟨[], trivial, ending, rfl⟩
  | domain node next ih =>
    obtain ⟨turns, inOrder, ended⟩ := ih (Store.domain w.store node) w
    exact ⟨[] :: turns, ⟨rfl, inOrder⟩, ended⟩
  | change c next ih =>
    obtain ⟨turns, inOrder, ended⟩ := ih (w.apply c).1 (w.apply c).2
    exact ⟨[] :: turns, ⟨rfl, inOrder⟩, ended⟩
  | ask contract data next ih =>
    obtain ⟨turns, inOrder, ended⟩ := ih w.ask.1 w.ask.2
    exact ⟨[] :: turns, ⟨rfl, inOrder⟩, ended⟩
  | clock next ih =>
    obtain ⟨turns, inOrder, ended⟩ := ih w.now w
    exact ⟨[] :: turns, ⟨rfl, inOrder⟩, ended⟩

/-- Whatever has happened so far, turns can be taken until the call has ended, and with no slot held up. -/
theorem exists_inOrder (flight : Flight) (w : World σ) : ∃ turns, flight.InOrder turns w ∧
    ∃ ending, (flight.after turns w).1.ending? = some ending := by
  induction flight using Flight.induction generalizing w with
  | call course => exact exists_inOrder_call course w
  | batch signature slots ih =>
    induction slots generalizing w with
    | nil => exact ⟨[], trivial, _, rfl⟩
    | cons slot rest ihRest =>
      -- The turns that end the first slot, and then those that end the rest, one place further on.
      obtain ⟨turns, inOrder, ending, ended⟩ := ih slot (List.mem_cons_self ..) w
      obtain ⟨later, others, ending', ended'⟩ :=
        ihRest (fun slot member => ih slot (List.mem_cons_of_mem _ member)) (slot.after turns w).2
      have gone := first?_eq_none_iff.mpr ⟨ending, ended⟩
      obtain ⟨turns', inOrder', done⟩ := others.of_rest gone ended'
      obtain ⟨start, afterwards⟩ := inOrder.of_slot signature rest
      refine ⟨turns.map (0 :: ·) ++ turns', start.append ?_, ?_⟩
      · rw [afterwards]
        exact inOrder'
      · rw [after_append, afterwards]
        exact done

/-! ## What becomes of calls -/

variable (σ) in
/-- A call in flight comes from another by turns, whatever the world was like at each of them. -/
def Becomes : Flight → Flight → Prop :=
  Relation.ReflTransGen fun a b => ∃ place, ∃ w : World σ, b = (a.turn place w).1

theorem becomes_after (flight : Flight) (turns : List (List Nat)) (w : World σ) :
    Becomes σ flight (flight.after turns w).1 := by
  induction turns generalizing flight w with
  | nil => exact .refl
  | cons place turns ih => exact .head ⟨place, w, rfl⟩ (ih _ _)

/-- A turn of one slot leaves the others where they are. -/
theorem forall₂_turnAt {start slots : List Flight} (h : List.Forall₂ (Becomes σ) start slots)
    (place : List Nat) (k : Nat) (w : World σ) :
    List.Forall₂ (Becomes σ) start (turnAt (turn place) k slots w).1 := by
  induction h generalizing k with
  | nil => cases k <;> exact .nil
  | cons first rest ih =>
    cases k with
    | zero => exact .cons (first.tail ⟨place, w, rfl⟩) rest
    | succ k => exact .cons first (ih k)

/-- In whatever order the slots of a batch take their turns, each goes on from where it started. -/
theorem Becomes.of_batch {slots : List Flight} {flight : Flight}
    (h : Becomes σ (batch signature slots) flight) :
    ∃ slots', flight = batch signature slots' ∧ List.Forall₂ (Becomes σ) slots slots' := by
  induction h with
  | refl => exact ⟨slots, rfl, List.forall₂_same.mpr fun _ _ => .refl⟩
  | tail _ turn ih =>
    obtain ⟨slots', rfl, become⟩ := ih
    obtain ⟨place, w, rfl⟩ := turn
    cases place with
    | nil => exact ⟨slots', rfl, become⟩
    | cons k place => exact ⟨_, rfl, forall₂_turnAt become place k w⟩

theorem Becomes.of_call {course : Course (Ending Response)} {flight : Flight}
    (h : Becomes σ (call course) flight) :
    ∃ course', flight = call course' ∧ course.Becomes σ course' := by
  induction h with
  | refl => exact ⟨course, rfl, .refl⟩
  | tail _ turn ih =>
    obtain ⟨course', rfl, become⟩ := ih
    obtain ⟨place, w, rfl⟩ := turn
    exact ⟨(course'.step w).1, by cases place <;> rfl, become.tail ⟨w, rfl⟩⟩

variable (σ) in
/-- If a call ends, then with an answer. -/
def Answers (flight : Flight) : Prop := ∀ flight', Becomes σ flight flight' →
  ∀ ending, flight'.ending? = some ending →
    ∃ response : Response, ending = .answered response ∧ response.Regular

theorem exists_responses {slots slots' : List Flight} (answers : ∀ slot ∈ slots, slot.Answers σ)
    (become : List.Forall₂ (Becomes σ) slots slots') {endings : List (Ending Response)}
    (ended : endings? slots' = some endings) : ∃ responses : List Response,
      endings = responses.map .answered ∧ ∀ response ∈ responses, response.Regular := by
  induction become generalizing endings with
  | nil =>
    cases ended
    exact ⟨[], rfl, nofun⟩
  | @cons slot slot' rest rest' first _ ih =>
    obtain ⟨ending, here, h⟩ := Option.bind_eq_some_iff.mp (by simpa only [endings?] using ended)
    obtain ⟨others, hrest, rfl⟩ := Option.map_eq_some_iff.mp h
    obtain ⟨answersFirst, answers⟩ := List.forall_mem_cons.mp answers
    obtain ⟨response, rfl, regular⟩ := answersFirst slot' first ending here
    obtain ⟨responses, rfl, regulars⟩ := ih answers hrest
    exact ⟨response :: responses, rfl, List.forall_mem_cons.mpr ⟨regular, regulars⟩⟩

/-- A batch that has ended is answered with what its slots are answered with. -/
theorem exists_ofBatch {slots slots' : List Flight} (answers : ∀ slot ∈ slots, slot.Answers σ)
    (become : List.Forall₂ (Becomes σ) slots slots') {ending : Ending Response}
    (ended : (batch .multicall slots').ending? = some ending) :
    ∃ responses : List Response, slots'.map ending? = responses.map (some ∘ .answered) ∧
      ending = .answered (.ofBatch responses) ∧ ∀ response ∈ responses, response.Regular := by
  obtain ⟨endings, h, rfl⟩ := Option.map_eq_some_iff.mp (by simpa only [ending?] using ended)
  obtain ⟨responses, rfl, regular⟩ := exists_responses answers become h
  refine ⟨responses, ?_, Outcome.ending_ofSlots_eq_answered_iff.mpr ⟨responses, rfl, rfl⟩, regular⟩
  rw [endings?_eq_some_iff.mp h, List.map_map]

/-- A call is answered if all functions that are invoked for it end, whatever happens in between. -/
theorem answers_flight {plan : Plan}
    (batches : ∀ ctx signature slots, .batch ctx signature slots ∈ plan.subplans → signature = .multicall)
    (ends : ∀ ctx signature handler args, .invoke ctx signature handler args ∈ plan.subplans →
      ¬ (handler ctx args).Becomes σ (.done .never)) : plan.flight.Answers σ := by
  induction plan using Plan.induction with
  | refused ctx cause =>
    intro flight become ending ended
    rw [Plan.flight, Plan.course] at become
    obtain ⟨course, rfl, steps⟩ := become.of_call
    cases steps.of_done
    cases ended
    exact ⟨_, rfl, .ofError cause⟩
  | invoke ctx signature handler args =>
    intro flight become ending ended
    rw [Plan.flight, Plan.course] at become
    -- All steps are those of the function: what its outcome leads to takes none.
    obtain ⟨_, rfl, steps⟩ := become.of_call
    obtain ⟨course, rfl, steps'⟩ := steps.of_bind
    cases course with
    | done outcome =>
      cases ended
      have finished : outcome ≠ .never := by
        rintro rfl
        exact ends ctx signature handler args (Plan.mem_subplans_self _) steps'
      obtain ⟨response, h⟩ := Outcome.ending_answered finished signature
      exact ⟨response, h, Outcome.regular_of_ending h⟩
    | domain | change | ask | clock => cases ended
  | batch ctx signature slots ih =>
    obtain rfl := batches ctx signature slots (Plan.mem_subplans_self _)
    intro flight become ending ended
    rw [Plan.flight, flights_eq_map] at become
    obtain ⟨slots', rfl, places⟩ := become.of_batch
    have each : ∀ slot ∈ slots.map Plan.flight, slot.Answers σ := by
      rw [List.forall_mem_map]
      intro plan member
      have inside : ∀ inner ∈ plan.subplans, inner ∈ (Plan.batch ctx .multicall slots).subplans :=
        fun inner h => Plan.mem_subplans_batch.mpr (.inr ⟨plan, member, h⟩)
      exact ih plan member (fun ctx' signature slots' h => batches ctx' signature slots' (inside _ h))
        fun ctx' signature handler args h => ends ctx' signature handler args (inside _ h)
    obtain ⟨responses, -, rfl, -⟩ := exists_ofBatch each places ended
    exact ⟨_, rfl, .ok _ _⟩

end Turns

end Flight

end OffchainNames
