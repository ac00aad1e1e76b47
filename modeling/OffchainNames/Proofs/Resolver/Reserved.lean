import OffchainNames.Proofs.Resolver.Lifecycle
import OffchainNames.Proofs.Store.Texts

/-!
# Reserved texts stay as they are

Nobody sets a text under a reserved key. One function sets texts at all, and it refuses the key that the
store would get, whatever bytes it was read from: bytes that are no text are read as a key before it is
compared. No other function, no batch and no stage sets a text, in either backend. So the text of every node
under a reserved key is the same at all moments of every run (`Resolver.reserved_text_kept`).
-/

namespace OffchainNames

section Stages

variable {σ : Type} [Store σ]

/-- The marking leaves the store as it is, or stores a marker. -/
theorem Integrity.store_run_process (i : Integrity) (call : Call) (response : Response) (w : World σ) :
    ((i.process call response).run w).2.store = w.store ∨
      ∃ node marker, ((i.process call response).run w).2.store =
        (Store.apply (.setMarker node marker) w.store).2 := by
  unfold process
  split
  · split
    · exact .inl rfl
    · rename_i node _
      simp only [mark, Course.run]
      split
      · exact .inl rfl
      · exact .inl rfl
      · rename_i record _
        refine .inr ⟨node, record.fingerprint, ?_⟩
        simp only [Course.run, World.apply]
        split <;> rfl
  · exact .inl rfl

end Stages

/-- A standard stage sets no text. -/
theorem Stage.Standard.text {stage : Stage} (standard : stage.Standard) (call : Call)
    (response : Response) (w : World Backend) (n : Word) (key : String) :
    Store.text ((stage.process call response).run w).2.store n key = Store.text w.store n key := by
  cases standard with
  | integrity i =>
    rw [Integrity.run_stage]
    obtain same | ⟨node, marker, stored⟩ := i.store_run_process call response w
    · rw [same]
    · rw [stored]
      refine Backend.text_apply ?_
      rintro ⟨value, heq⟩
      cases heq
  | signing signer time => cases time <;> rfl

namespace Resolver

variable {r : Resolver} {n : Word} {key : String}

/-- A command that is not objected to sets no reserved text. -/
theorem not_setsText_of_unobjected {command : Command} (reserved : key ∈ r.reserved)
    (unobjected : r.objection? command = none) (node : Word) (signer : Address) :
    ¬ (command.change node signer).SetsText n key := by
  rintro ⟨value, sets⟩
  cases command with
  | setText set text =>
    cases sets
    rw [objection?, if_pos (List.contains_iff_mem.mpr reserved)] at unobjected
    cases unobjected
  | setAddress | setContenthash | register | transfer => cases sets

/-- No function sets a reserved text. -/
theorem Effect.text {op : Operation} {ctx : Context} {args : Arguments} {w w' : World Backend}
    {outcome : Outcome} (effect : r.Effect op ctx args w (outcome, w')) (reserved : key ∈ r.reserved) :
    Store.text w'.store n key = Store.text w.store n key := by
  cases effect with
  | refused status kept => rw [kept]
  | answered requested found => rfl
  | @changed node command signer _ requested unobjected permitted applied
  | @rejected node command signer _ _ requested unobjected permitted applied =>
    have kept := Backend.text_apply (b := w.store)
      (not_setsText_of_unobjected (n := n) reserved unobjected node signer)
    rwa [applied] at kept

/-- Whatever calls come in, the text of every node under a reserved key is at every moment of the run what
it was at the start, and so it is at the end. -/
theorem reserved_text_kept (r : Resolver) {g : Gateway} (serves : r.Serves g)
    (arrivals : List Arrival) (w : World Backend) (n : Word) {key : String}
    (reserved : key ∈ r.reserved) :
    (∀ moment ∈ g.moments arrivals w,
      Store.text moment.world.store n key = Store.text w.store n key) ∧
    Store.text (g.handleAll arrivals w).store n key = Store.text w.store n key := by
  have kept : ∀ moment ∈ g.moments arrivals w,
      Store.text moment.world.store n key = Store.text w.store n key := by
    refine Gateway.moments_preserve (I := fun b => Store.text b n key = Store.text w.store n key)
      ?_ ?_ arrivals rfl
    · intro call before ctx signature handler args inner visited same
      rw [serves.table] at visited
      obtain ⟨-, op, -, -, rfl, -, -⟩ :=
        invoked_of_mem_subplans (Plan.mem_subplans_of_mem_visits visited)
      have effect := r.effect_handler op ctx args inner
      exact (effect.text reserved).trans same
    · intro stage member call response before same
      exact ((serves.stages stage member).text call response before n key).trans same
  refine ⟨kept, ?_⟩
  obtain ⟨earlier, moments⟩ := g.moments_eq_last arrivals w
  refine kept ⟨none, g.handleAll arrivals w⟩ ?_
  rw [moments]
  exact List.mem_append_right _ (List.mem_singleton.mpr rfl)

/-! ## A key that is no text

The owner of node 2 signs a call that sets a text of it under a single byte that begins no character. Such a
byte is read as the replacement character, and that is a reserved key here.
-/

namespace ReplacedKey

/-- The resolver that reserves the replacement character. -/
def resolver : Resolver := ⟨TwoWrites.resolver.authority, ["\uFFFD"]⟩

/-- The calldata. -/
def data : Bytes :=
  Bytes.ofBits Operation.setText.selector ++
    Abi.encode [.fixedBytes 2 32, .bytes [0xff], .string "new"]

/-- The signature of the owner. -/
def signature : Signature :=
  ⟨0x8e0a41f7ced99adc54125d0ea047764b1a7b0e44526201fd6e1cdf5448d5259b,
    0x2cb9733d62930d42cc9d63bb8150f3f2382b90c589213490efded593ef220896, true⟩

/-- The call. -/
def request : Call := ⟨0xc0, data, some ⟨signature.toBytes, ⟨data, 0xc0, 4102444800⟩⟩⟩

/-- The world in which the account owns node 2 and its text under the key is set. -/
def world : World Backend :=
  ⟨.memory (Memory.empty.put 2
    { node := 2, owner := TwoWrites.account, texts := (∅ : SortedMap String String).insert "\uFFFD" "old" }),
    1700000000, []⟩

theorem text_world : Store.text world.store 2 "\uFFFD" = .ok (some "old") := by
  show Except.ok (Option.bind _ _) = _
  rw [Memory.getElem?_put_self, Option.bind_some, Std.ExtTreeMap.getElem?_insert_self]

theorem recover_signature : recoverSigner signature.toBytes
    ((Message.mk data 0xc0 4102444800).digest TwoWrites.resolver.authority.domain) =
      .ok TwoWrites.account := by
  have callData : keccak256 data =
      0x024024ff6c3a1a1014fff02647e8578ffbc30d65749aa1a0461206798ca03b09 := by
    refine TwoWrites.keccak256_of_eq (by conv => lhs; cbv) ?_
    decide +kernel
  have digest : TwoWrites.digestFor
      0x024024ff6c3a1a1014fff02647e8578ffbc30d65749aa1a0461206798ca03b09 =
        0x2a037ed74a38ea2c4468dd7a5264bde873d66a3592f8e13b4a96d32a587a9526 := by
    decide +kernel
  refine TwoWrites.recover_of_callData callData digest ?_
  unfold signature TwoWrites.account
  decide +kernel

theorem read_data : (Operation.setText.signature.decodeInput (data.drop 4) >>=
    Operation.setText.read) = .ok (2, .command (.setText "\uFFFD" "new")) := by
  decide +kernel

theorem run_request : (resolver.table.dispatch (.ofCall request)).run world =
    (.answered (.error 400 "reserved key: \uFFFD"), world) := by
  obtain ⟨args, hargs, hread⟩ := Except.bind_eq_ok_iff.mp read_data
  have split : splitSelector data = .ok (Operation.setText.selector, data.drop 4) := by
    rw [data, splitSelector_append]
    rfl
  have calls : Operation.setText.Calls args (.ofCall request) := ⟨_, split, hargs⟩
  have objected : resolver.objection? (.setText "\uFFFD" "new") =
      some (.refusal "reserved key: \uFFFD") := by
    decide
  rw [Table.dispatch, plan_of_calls calls, Plan.run_course_invoke, handler]
  simp only [hread, execute, objected]
  rfl

end ReplacedKey

/-- The owner's call counts and is refused all the same, and the text stays. -/
theorem replaced_key_refused :
    ReplacedKey.resolver.Serves ReplacedKey.resolver.gateway ∧
      "\uFFFD" ∈ ReplacedKey.resolver.reserved ∧
      ReplacedKey.resolver.authority.domain.signerAt (.ofCall ReplacedKey.request) 1700000000 =
        .ok TwoWrites.account ∧
      Store.owner ReplacedKey.world.store 2 = .ok (some TwoWrites.account) ∧
      ((ReplacedKey.resolver.table.dispatch (.ofCall ReplacedKey.request)).run ReplacedKey.world).1 =
        .answered (.error 400 "reserved key: \uFFFD") ∧
      Store.text (ReplacedKey.resolver.gateway.handleAll [⟨ReplacedKey.request, 1700000000, []⟩]
        ReplacedKey.world).store 2 "\uFFFD" = .ok (some "old") := by
  have serves := ReplacedKey.resolver.serves_gateway
  have reserved : "\uFFFD" ∈ ReplacedKey.resolver.reserved := List.mem_singleton.mpr rfl
  refine ⟨serves, reserved, ?_, ?_, ?_, ?_⟩
  · exact Domain.signerAt_eq_ok_iff.mpr
      ⟨_, rfl, rfl, rfl, by decide, ReplacedKey.recover_signature⟩
  · exact Memory.owner_eq_some_iff.mpr ⟨_, Memory.getElem?_put_self .., rfl, by decide⟩
  · rw [ReplacedKey.run_request]
  · rw [(reserved_text_kept ReplacedKey.resolver serves _ ReplacedKey.world 2 reserved).2]
    exact ReplacedKey.text_world

end Resolver

end OffchainNames
