import Mathlib.Data.List.Chain
import OffchainNames.Proofs.Resolver.Command
import OffchainNames.Proofs.Resolver.Lifecycle
import OffchainNames.Proofs.Store.Owners

/-!
# Writes that are in flight together

Writes that are in flight together take their operations in turns, each turn one atomic operation of one of
them (`Course.step`). Where owners are looked up in the store, a write other than a registration has looked
up the owner of its node and found its signer before it makes its change (`Course.Checks`), whatever the
others do. But nothing holds the store between the two: the owner that was found is still the owner when the
change is made, unless another write has given the node away in between (`Resolver.owner_checked`). That
does happen (`Resolver.overtaken`).
-/

namespace OffchainNames

/-- A turn: whose it is, and the time. -/
structure Turn where
  writer : Nat
  now : UInt64

/-- What happens in a turn: a course takes its next operation in a world. -/
structure Event (σ : Type) where
  writer : Nat
  course : Course Outcome
  world : World σ

section Events

variable {σ : Type} [Store σ]

def Turn.world (turn : Turn) (w : World σ) : World σ := { w with now := turn.now }

/-- The courses after one of them has taken an operation. -/
def advance (courses : Nat → Course Outcome) (writer : Nat) (w : World σ) : Nat → Course Outcome :=
  fun i => if i = writer then ((courses i).step w).1 else courses i

/-- What happens in turns, one after the other. -/
def events (courses : Nat → Course Outcome) (w : World σ) : List Turn → List (Event σ)
  | [] => []
  | turn :: rest =>
    ⟨turn.writer, courses turn.writer, turn.world w⟩ ::
      events (advance courses turn.writer (turn.world w))
        ((courses turn.writer).step (turn.world w)).2 rest

/-- An event starts with the store that the one before it leaves. -/
def Event.Leads (a b : Event σ) : Prop := b.world.store = (a.course.step a.world).2.store

theorem isChain_events (courses : Nat → Course Outcome) (w : World σ) (turns : List Turn) :
    (events courses w turns).IsChain Event.Leads := by
  induction turns generalizing courses w with
  | nil => exact .nil
  | cons turn rest ih =>
    cases rest with
    | nil => exact .singleton _
    | cons next rest => exact .cons_cons rfl (ih _ _)

/-- At an event a node is given to another owner. -/
def Event.Transfers (event : Event σ) (n : Word) : Prop :=
  ∃ c next, event.course = .change c next ∧ c.Transfers n

end Events

/-! ## What a write has found out -/

/-- At an event a write has a signer. -/
def Event.Signs {σ : Type} (event : Event σ) (domain : Domain) (ctx : Context) (signer : Address) :
    Prop :=
  (∃ next, event.course = .clock next) ∧ domain.signerAt ctx event.world.now = .ok signer

/-- At an event a write looks up a node and finds its owner. -/
def Event.Finds {σ : Type} [Store σ] (event : Event σ) (n : Word) (owner : Address) : Prop :=
  (∃ next, event.course = .domain n next) ∧ Store.owner event.world.store n = .ok (some owner)

/-- A course makes a change, other than a registration, only after it has a signer and has found that the
signer owns the node: given who signed and who owned which node so far. -/
def Course.Checks (domain : Domain) (ctx : Context) :
    (signed : Address → Prop) → (found : Word → Address → Prop) → Course Outcome → Prop
  | _, _, .done _ => True
  | signed, found, .domain n next => ∀ looked, Checks domain ctx signed
      (fun node owner => found node owner ∨ node = n ∧
        looked.map (fun record => record.bind Record.registeredOwner?) = .ok (some owner)) (next looked)
  | signed, found, .change c next =>
    ((∃ owner ttl, c = .register c.node owner ttl) ∨ ∃ signer, signed signer ∧ found c.node signer) ∧
      ∀ answer, Checks domain ctx signed found (next answer)
  | signed, found, .ask _ _ next => ∀ reply, Checks domain ctx signed found (next reply)
  | signed, found, .clock next => ∀ now, Checks domain ctx
      (fun signer => signed signer ∨ domain.signerAt ctx now = .ok signer) found (next now)

namespace Course

variable {domain : Domain} {ctx : Context} {signed signed' : Address → Prop}
  {found found' : Word → Address → Prop}

/-- Knowing more does no harm. -/
theorem Checks.mono {c : Course Outcome} (checks : c.Checks domain ctx signed found)
    (signs : ∀ signer, signed signer → signed' signer)
    (finds : ∀ n owner, found n owner → found' n owner) : c.Checks domain ctx signed' found' := by
  induction c generalizing signed signed' found found' with
  | done answer => trivial
  | domain n next ih =>
    intro looked
    exact ih looked (checks looked) signs fun node owner => Or.imp_left (finds node owner)
  | change c next ih =>
    obtain ⟨allowed, rest⟩ := checks
    refine ⟨allowed.imp_right ?_, fun answer => ih answer (rest answer) signs finds⟩
    rintro ⟨signer, hsigned, hfound⟩
    exact ⟨signer, signs signer hsigned, finds _ signer hfound⟩
  | ask contract data next ih =>
    intro reply
    exact ih reply (checks reply) signs finds
  | clock next ih =>
    intro now
    exact ih now (checks now) (fun signer => Or.imp_left (signs signer)) finds

end Course

namespace Resolver

variable {r : Resolver} {op : Operation} {ctx : Context} {args : Arguments} {node : Word}

/-- The change of a write, which is its last operation. -/
def making (change : Change) : Course Outcome := .change change fun answer => .done (outcome answer)

/-- The lookup that comes before a change: the signer has to own the node. -/
def looking (node : Word) (signer : Address) (change : Change) : Course Outcome :=
  .domain node fun
    | .error cause => .done (.failure (.store cause))
    | .ok record =>
      if record.bind Record.registeredOwner? = some signer then making change
      else .done (.failure (Authority.notOwner signer node))

/-- A write other than a registration: it finds its signer, looks up the owner, and makes the change. -/
def checking (r : Resolver) (ctx : Context) (node : Word) (command : Command) : Course Outcome :=
  .clock fun now =>
    match r.authority.domain.signerAt ctx now with
    | .error cause => .done (.failure cause)
    | .ok signer => looking node signer (command.change node signer)

theorem execute_eq_checking (stored : r.authority.ownership = .stored) {command : Command}
    (unobjected : r.objection? command = none) (plain : command.registers = false) :
    r.execute ctx node command = r.checking ctx node command := by
  rw [execute, unobjected]
  simp only [permit_eq_authorize plain, Authority.authorize, Authority.signer, Course.bind, checking]
  refine congrArg Course.clock (funext fun now => ?_)
  cases r.authority.domain.signerAt ctx now with
  | error cause => rfl
  | ok signer =>
    simp only [stored, Ownership.verify, Course.bind, looking]
    refine congrArg (Course.domain node) (funext fun found => ?_)
    cases found with
    | error cause => rfl
    | ok record =>
      by_cases owns : record.bind Record.registeredOwner? = some signer
      · simp only [owns, beq_self_eq_true, Course.bind, if_true, making]
        refine congrArg (Course.change _) (funext fun answer => ?_)
        cases answer <;> rfl
      · simp only [beq_eq_false_iff_ne.mpr owns, Course.bind, if_neg owns]

section Steps

variable {σ : Type} [Store σ] {w : World σ} {signer : Address}

theorem step_checking {command : Command}
    (signed : r.authority.domain.signerAt ctx w.now = .ok signer) :
    (r.checking ctx node command).step w =
      (looking node signer (command.change node signer), w) := by
  simp only [checking, Course.step, signed]

theorem step_looking {change : Change} (owns : Store.owner w.store node = .ok (some signer)) :
    (looking node signer change).step w = (making change, w) := by
  obtain ⟨record, found, owner⟩ := Except.map_eq_ok_iff.mp owns
  simp only [looking, Course.step, found, owner, if_true]

end Steps

theorem checks_looking {domain : Domain} {signer : Address} {change : Change}
    {signed : Address → Prop} (found : Word → Address → Prop) (known : signed signer)
    (about : change.node = node) :
    (looking node signer change).Checks domain ctx signed found := by
  intro looked
  dsimp only
  split
  · trivial
  · rename_i record
    split
    · rename_i owns
      exact ⟨.inr ⟨signer, known, .inr ⟨about, congrArg Except.ok owns⟩⟩, fun _ => trivial⟩
    · trivial

theorem checks_checking (r : Resolver) (ctx : Context) (node : Word) (command : Command)
    (signed : Address → Prop) (found : Word → Address → Prop) :
    (r.checking ctx node command).Checks r.authority.domain ctx signed found := by
  intro now
  dsimp only
  split
  · trivial
  · rename_i signer signs
    exact checks_looking found (.inr signs) (command.node_change node signer)

/-- Where owners are looked up in the store, a function of the resolver checks before it writes. -/
theorem checks_handler (stored : r.authority.ownership = .stored) (signed : Address → Prop)
    (found : Word → Address → Prop) :
    (r.handler op ctx args).Checks r.authority.domain ctx signed found := by
  unfold handler
  split
  · trivial
  · intro looked
    cases looked <;> trivial
  · rename_i node command _
    cases unobjected : r.objection? command with
    | some cause =>
      rw [execute, unobjected]
      trivial
    | none =>
      cases registers : command.registers with
      | false =>
        rw [execute_eq_checking stored unobjected registers]
        exact r.checks_checking ctx node command signed found
      | true =>
        obtain ⟨ttl, rfl⟩ := Command.eq_register registers
        rw [execute, unobjected]
        intro now
        simp only [Course.bind]
        cases r.authority.domain.signerAt ctx now with
        | error cause => trivial
        | ok signer =>
          refine ⟨.inl ⟨signer, ttl, rfl⟩, ?_⟩
          intro answer
          cases answer <;> trivial

end Resolver

/-- A function that is invoked while others are. -/
structure InFlight where
  op : Operation
  ctx : Context
  args : Arguments

def InFlight.course (r : Resolver) (f : InFlight) : Course Outcome := r.handler f.op f.ctx f.args

section Together

variable {σ : Type} [Store σ] {domain : Domain} {writes : Nat → InFlight}

/-- All courses check what they still have to check, given what happened so far. -/
def Checked (domain : Domain) (writes : Nat → InFlight) (past : List (Event σ))
    (courses : Nat → Course Outcome) : Prop :=
  ∀ i, (courses i).Checks domain (writes i).ctx
    (fun signer => ∃ e ∈ past, e.writer = i ∧ e.Signs domain (writes i).ctx signer)
    (fun n owner => ∃ e ∈ past, e.writer = i ∧ e.Finds n owner)

/-- What a course finds out in a step counts from then on. -/
theorem Course.Checks.step {c : Course Outcome} {ctx : Context} {signed : Address → Prop}
    {found : Word → Address → Prop} (checks : c.Checks domain ctx signed found) (i : Nat)
    (w : World σ) : (c.step w).1.Checks domain ctx
      (fun signer => signed signer ∨ (⟨i, c, w⟩ : Event σ).Signs domain ctx signer)
      (fun n owner => found n owner ∨ (⟨i, c, w⟩ : Event σ).Finds n owner) := by
  cases c with
  | done answer => trivial
  | domain n next =>
    refine (checks (Store.domain w.store n)).mono (fun signer => .inl) ?_
    rintro node owner (known | ⟨rfl, looked⟩)
    · exact .inl known
    · exact .inr ⟨⟨next, rfl⟩, looked⟩
  | change c next => exact (checks.2 _).mono (fun signer => .inl) fun n owner => .inl
  | ask contract data next => exact (checks _).mono (fun signer => .inl) fun n owner => .inl
  | clock next =>
    refine (checks w.now).mono ?_ fun n owner => .inl
    rintro signer (known | signs)
    · exact .inl known
    · exact .inr ⟨⟨next, rfl⟩, signs⟩

theorem Checked.advance {past : List (Event σ)} {courses : Nat → Course Outcome}
    (checked : Checked domain writes past courses) (writer : Nat) (w : World σ) :
    Checked domain writes (past ++ [⟨writer, courses writer, w⟩]) (advance courses writer w) := by
  intro i
  unfold OffchainNames.advance
  split
  · rename_i same
    subst same
    refine ((checked i).step i w).mono ?_ ?_
    · rintro signer (⟨e, member, mine, signs⟩ | signs)
      · exact ⟨e, List.mem_append_left _ member, mine, signs⟩
      · exact ⟨_, List.mem_append_right _ (List.mem_singleton_self _), rfl, signs⟩
    · rintro n owner (⟨e, member, mine, finds⟩ | finds)
      · exact ⟨e, List.mem_append_left _ member, mine, finds⟩
      · exact ⟨_, List.mem_append_right _ (List.mem_singleton_self _), rfl, finds⟩
  · refine (checked i).mono ?_ ?_
    · rintro signer ⟨e, member, mine, signs⟩
      exact ⟨e, List.mem_append_left _ member, mine, signs⟩
    · rintro n owner ⟨e, member, mine, finds⟩
      exact ⟨e, List.mem_append_left _ member, mine, finds⟩

/-- At every event the course has checked what the events before it can tell. -/
theorem Checked.event {past earlier later : List (Event σ)} {event : Event σ}
    {courses : Nat → Course Outcome} {w : World σ} {turns : List Turn}
    (checked : Checked domain writes past courses)
    (split : events courses w turns = earlier ++ event :: later) :
    ∃ courses', event.course = courses' event.writer ∧
      Checked domain writes (past ++ earlier) courses' := by
  induction turns generalizing past earlier courses w with
  | nil => cases earlier <;> cases split
  | cons turn rest ih =>
    cases earlier with
    | nil =>
      obtain ⟨rfl, -⟩ := List.cons.inj split
      exact ⟨courses, rfl, by simpa using checked⟩
    | cons first earlier =>
      obtain ⟨rfl, tail⟩ := List.cons.inj split
      obtain ⟨courses', now, known⟩ := ih (checked.advance turn.writer (turn.world w)) tail
      refine ⟨courses', now, ?_⟩
      rwa [List.append_assoc] at known

end Together

/-! ## What others do in between -/

variable {n : Word} {account : Address}

/-- A node keeps its owner from one event to the next, unless it is given away. -/
theorem Event.Leads.owner {a b : Event Backend} (leads : a.Leads b)
    (owned : Store.owner a.world.store n = .ok (some account)) (kept : ¬ a.Transfers n) :
    Store.owner b.world.store n = .ok (some account) := by
  obtain ⟨writer, course, w⟩ := a
  rw [leads]
  cases course with
  | done | domain | clock => exact owned
  | ask contract data next =>
    show Store.owner w.ask.2.store n = _
    rw [World.store_ask]
    exact owned
  | change c next => exact Backend.owner_apply owned fun gives => kept ⟨c, next, rfl, gives⟩

theorem owner_of_isChain {first event : Event Backend} {between later : List (Event Backend)}
    (chain : (first :: (between ++ event :: later)).IsChain Event.Leads)
    (owned : Store.owner first.world.store n = .ok (some account))
    (kept : ∀ e ∈ first :: between, ¬ e.Transfers n) :
    Store.owner event.world.store n = .ok (some account) := by
  induction between generalizing first with
  | nil => exact (List.isChain_cons_cons.mp chain).1.owner owned (kept first (List.mem_cons_self ..))
  | cons second between ih =>
    obtain ⟨leads, chain⟩ := List.isChain_cons_cons.mp chain
    have owned' := leads.owner owned (kept first (List.mem_cons_self ..))
    exact ih chain owned' fun e member => kept e (List.mem_cons_of_mem _ member)

namespace Resolver

/-- Where owners are looked up in the store: whenever a write other than a registration makes its change,
however the writes in flight take turns, it has a signer, has looked up the node, and has found that the
signer owns it. That is still so when the change is made, unless the node was given away in between. -/
theorem owner_checked (r : Resolver) (stored : r.authority.ownership = .stored)
    (writes : Nat → InFlight) (w : World Backend) (turns : List Turn)
    {earlier later : List (Event Backend)} {event : Event Backend} {c : Change}
    {next : Except StoreError Unit → Course Outcome}
    (split : events (fun i => (writes i).course r) w turns = earlier ++ event :: later)
    (making : event.course = .change c next) (plain : ∀ owner ttl, c ≠ .register c.node owner ttl) :
    ∃ signer before look between, earlier = before ++ look :: between ∧
      (∃ e ∈ earlier, e.writer = event.writer ∧
        e.Signs r.authority.domain (writes event.writer).ctx signer) ∧
      look.writer = event.writer ∧ look.Finds c.node signer ∧
      ((∀ e ∈ between, ¬ e.Transfers c.node) →
        Store.owner event.world.store c.node = .ok (some signer)) := by
  have start : Checked (σ := Backend) r.authority.domain writes [] fun i => (writes i).course r :=
    fun i => checks_handler stored _ _
  obtain ⟨courses, now, checked⟩ := start.event split
  have checks := checked event.writer
  rw [← now, making] at checks
  rcases checks.1 with ⟨owner, ttl, registers⟩ | ⟨signer, signed, look, member, mine, finds⟩
  · exact absurd registers (plain owner ttl)
  obtain ⟨before, between, rfl⟩ := List.append_of_mem member
  refine ⟨signer, before, look, between, rfl, signed, mine, finds, ?_⟩
  intro kept
  have chain := isChain_events (fun i => (writes i).course r) w turns
  rw [split, List.append_assoc] at chain
  refine owner_of_isChain (List.isChain_append.mp chain).2.1 finds.2 ?_
  intro e member
  rcases List.mem_cons.mp member with rfl | member
  · -- The lookup itself changes nothing.
    rintro ⟨change, next', changes, -⟩
    obtain ⟨next'', looks⟩ := finds.1
    rw [looks] at changes
    cases changes
  · exact kept e member

/-! ## Two writes at once

The two calls of the batch of `Handover` in flight together: both look up the owner of node 2 before either
of them makes its change.
-/

namespace Handover

/-- The transfer, and the clearing of the content hash. -/
def writes : Nat → InFlight
  | 0 => ⟨.transfer, slot giving, [.fixedBytes 2 32, .address other]⟩
  | _ => ⟨.setContenthash, slot TwoWrites.clearing, [.fixedBytes 2 32, .bytes []]⟩

/-- Turn by turn, at the same time. -/
def turns : List Turn := [0, 1, 0, 1, 0, 1].map fun writer => ⟨writer, 1700000000⟩

def backend (owner : Address) : World Backend := ⟨.memory (store owner), 1700000000, []⟩

theorem owner_backend (owner : Address) (owned : owner ≠ 0) :
    Store.owner (backend owner).store 2 = .ok (some owner) :=
  Memory.owner_eq_some_iff.mpr ⟨_, getElem?_store owner, rfl, owned⟩

/-- The operations that each of the writes takes before its change. -/
def courses (first second : Course Outcome) : Nat → Course Outcome
  | 0 => first
  | 1 => second
  | i => (writes i).course TwoWrites.resolver

theorem courses_writes : (fun i => (writes i).course TwoWrites.resolver) =
    courses (TwoWrites.resolver.checking (slot giving) 2 (.transfer other))
      (TwoWrites.resolver.checking (slot TwoWrites.clearing) 2 (.setContenthash [])) := by
  funext i
  match i with
  | 0 =>
    show TwoWrites.resolver.execute (slot giving) 2 (.transfer other) = _
    exact execute_eq_checking rfl rfl rfl
  | 1 =>
    show TwoWrites.resolver.execute (slot TwoWrites.clearing) 2 (.setContenthash []) = _
    exact execute_eq_checking rfl rfl rfl
  | i + 2 => rfl

theorem advance_first (first second : Course Outcome) (w : World Backend) :
    advance (courses first second) 0 w = courses (first.step w).1 second := by
  funext i
  match i with
  | 0 | 1 | i + 2 => rfl

theorem advance_second (first second : Course Outcome) (w : World Backend) :
    advance (courses first second) 1 w = courses first (second.step w).1 := by
  funext i
  match i with
  | 0 | 1 => rfl
  | i + 2 => simp [advance, courses]

/-- Both writes find that the account owns the node, and the transfer is made before the other change. -/
theorem events_writes :
    events (fun i => (writes i).course TwoWrites.resolver) (backend TwoWrites.account) turns =
      [⟨0, TwoWrites.resolver.checking (slot giving) 2 (.transfer other), backend TwoWrites.account⟩,
        ⟨1, TwoWrites.resolver.checking (slot TwoWrites.clearing) 2 (.setContenthash []),
          backend TwoWrites.account⟩,
        ⟨0, looking 2 TwoWrites.account (.transfer 2 other), backend TwoWrites.account⟩,
        ⟨1, looking 2 TwoWrites.account (.setContenthash 2 []), backend TwoWrites.account⟩,
        ⟨0, making (.transfer 2 other), backend TwoWrites.account⟩,
        ⟨1, making (.setContenthash 2 []), backend other⟩] := by
  have signed : ∀ calldata, TwoWrites.resolver.authority.domain.signerAt (slot calldata)
      (backend TwoWrites.account).now = .ok TwoWrites.account := by
    intro calldata
    exact signerAt_slot calldata (by decide : (1700000000 : UInt64) ≤ 4102444800)
  have owns := owner_backend TwoWrites.account (by decide)
  have given : (making (.transfer 2 other)).step (backend TwoWrites.account) =
      (.done (.reply {}), backend other) := by
    have applied : Store.apply (.transfer 2 other) (backend TwoWrites.account).store =
        (.ok (), (backend other).store) := by
      rw [backend, Backend.apply_memory, apply_giving]
      rfl
    simp only [making, Course.step, World.apply, applied]
    rfl
  have time : ∀ writer owner, (⟨writer, 1700000000⟩ : Turn).world (backend owner) = backend owner :=
    fun _ _ => rfl
  simp only [turns, List.map_cons, List.map_nil, courses_writes, events, time, courses, advance_first,
    advance_second, step_checking (signed _), Command.change, step_looking owns, given]

end Handover

/-- The transfer is made while the account owns node 2. -/
theorem transfer_checked : TwoWrites.resolver.authority.ownership = .stored ∧
    ∃ earlier event later next, events (fun i => (Handover.writes i).course TwoWrites.resolver)
        (Handover.backend TwoWrites.account) Handover.turns = earlier ++ event :: later ∧
      event.course = .change (.transfer 2 Handover.other) next ∧
      ∃ signer before look between, earlier = before ++ look :: between ∧
        (∃ e ∈ earlier, e.writer = event.writer ∧ e.Signs TwoWrites.resolver.authority.domain
          (Handover.writes event.writer).ctx signer) ∧
        look.writer = event.writer ∧ look.Finds 2 signer ∧
        ((∀ e ∈ between, ¬ e.Transfers 2) →
          Store.owner event.world.store 2 = .ok (some signer)) := by
  have split : events (fun i => (Handover.writes i).course TwoWrites.resolver)
      (Handover.backend TwoWrites.account) Handover.turns = [_, _, _, _] ++ _ :: [_] :=
    Handover.events_writes
  refine ⟨rfl, _, _, _, _, split, rfl, ?_⟩
  refine owner_checked TwoWrites.resolver rfl Handover.writes (Handover.backend TwoWrites.account)
    Handover.turns split rfl ?_
  intro owner ttl same
  cases same

/-- The clearing, which was checked before, is made when another account owns node 2. -/
theorem overtaken : ∃ earlier event later next,
    events (fun i => (Handover.writes i).course TwoWrites.resolver)
      (Handover.backend TwoWrites.account) Handover.turns = earlier ++ event :: later ∧
    event.course = .change (.setContenthash 2 []) next ∧
    (∃ e ∈ earlier, e.writer = event.writer ∧ e.Signs TwoWrites.resolver.authority.domain
      (Handover.writes event.writer).ctx TwoWrites.account) ∧
    Store.owner event.world.store 2 = .ok (some Handover.other) ∧
    Handover.other ≠ TwoWrites.account := by
  have split : events (fun i => (Handover.writes i).course TwoWrites.resolver)
      (Handover.backend TwoWrites.account) Handover.turns = [_, _, _, _, _] ++ _ :: [] :=
    Handover.events_writes
  refine ⟨_, _, _, _, split, rfl, ⟨_, List.mem_cons_of_mem _ (List.mem_cons_self ..), rfl,
    ⟨⟨_, rfl⟩, ?_⟩⟩, Handover.owner_backend Handover.other (by decide), by decide⟩
  exact Handover.signerAt_slot TwoWrites.clearing (by decide : (1700000000 : UInt64) ≤ 4102444800)

end Resolver

end OffchainNames
