import OffchainNames.Proofs.Abi.RoundTrip
import OffchainNames.Proofs.Curve.Signature
import OffchainNames.Proofs.Dispatch.Failure

/-!
# Signed responses can be checked

An envelope is read back from its bytes (`Envelope.decode_encode`), and it passes the check of whoever
trusts the account that its signature recovers to, up to its last second and no longer. So every success
of a gateway that signs last can be checked against the call (`verify_of_run_handle`), if no stage before
the signing fails with the status of success. That the signature recovers to the account of the key is
assumed of the one digest that was signed.
-/

namespace OffchainNames

theorem toNat_addTime (a b : UInt64) :
    (addTime a b).toNat = min (a.toNat + b.toNat) (UInt64.size - 1) := by
  have bound : min (a.toNat + b.toNat) (UInt64.size - 1) < UInt64.size :=
    Nat.lt_of_le_of_lt (Nat.min_le_right ..) (by decide)
  rw [addTime, UInt64.toNat_ofNat_of_lt' bound]

namespace Envelope

theorem decode_encode (e : Envelope) (short : e.encode.length < UInt64.size) :
    decode e.encode = .ok e := by
  have read : Abi.decode [.bytes, .uint 64, .bytes] e.encode =
      .ok [.bytes e.data, .uint (BitVec.ofNat 256 e.expires.toNat) 64, .bytes e.signature] :=
    Abi.decode_encode rfl rfl (by decide) short
  have small : e.expires.toNat < 2 ^ 256 := Nat.lt_trans e.expires.toNat_lt (by decide)
  have time : UInt64.ofNat (BitVec.ofNat 256 e.expires.toNat).toNat = e.expires := by
    rw [BitVec.toNat_ofNat, Nat.mod_eq_of_lt small, UInt64.ofNat_toNat]
  unfold decode
  rw [read]
  simp only [time]

theorem length_encode_le (e : Envelope) :
    e.encode.length ≤ 222 + e.data.length + e.signature.length := by
  rw [encode, Abi.encode, Abi.Part.length_assemble]
  simp [Abi.Value.parts, Abi.Value.part, Abi.Part.size, Abi.Part.headSize, Abi.Part.tail, Abi.sized,
    Abi.wordOf, Bytes.padRight]
  omega

end Envelope

namespace Verifier

variable (v : Verifier) (sender : Address) (request : Bytes) {e : Envelope} {now : UInt64}

/-- Once its signature has ended, nobody accepts an envelope. -/
theorem verify_encode_of_ended (short : e.encode.length < UInt64.size) (ended : e.expires < now) :
    v.verify sender request e.encode now = .error (.unauthorized "signature expired") := by
  unfold verify
  rw [Envelope.decode_encode e short]
  exact if_pos ended

/-- Until its signature ends, an envelope is accepted by whoever trusts the account that the signature
recovers to. -/
theorem verify_encode {account : Address} (short : e.encode.length < UInt64.size)
    (lasts : now ≤ e.expires)
    (recovered : recoverSigner e.signature (responseDigest sender e.expires request e.data) =
      .ok account) (trusted : v.trusts account = true) :
    v.verify sender request e.encode now = .ok (e.data, account) := by
  unfold verify
  rw [Envelope.decode_encode e short]
  simp only [UInt64.not_lt.mpr lasts, if_false, recovered]
  exact if_pos trusted

end Verifier

theorem recoverSigner_toBytes {sig : Signature} {digest : Word} {account : Address}
    (h : sig.recover digest = .ok account) : recoverSigner sig.toBytes digest = .ok account := by
  unfold recoverSigner
  rw [Signature.ofBytes_toBytes]
  simp only [h]

section Stages

variable {σ : Type} [Store σ]

/-- A stage never ends a call with an error that has the status of success. -/
def Stage.FailsOpenly (σ : Type) [Store σ] (stage : Stage) : Prop :=
  ∀ (call : Call) (response : Response) (w : World σ) (e : Error),
    ((stage.process call response).run w).1 = .answered (.error e) → e.status ≠ 200

/-- The marking fails as a failure to sign only. -/
theorem Integrity.failsOpenly_stage (i : Integrity) : i.stage.FailsOpenly σ := by
  intro call response w e h
  rw [run_stage] at h
  injection h with h
  cases success : response.isSuccess with
  | false =>
    rw [i.run_process_of_not_success call w success] at h
    cases h
  | true =>
    rcases i.run_process_of_success call w success with ⟨_, _, -, hrun⟩ | ⟨detail, _, hrun⟩
    · rw [hrun] at h
      cases h
    · rw [hrun] at h
      cases h
      exact (by decide : (500 : UInt16) ≠ 200)

/-- A success after stages that fail openly is what the last stage makes of the response that the stages
before it hand on. -/
theorem Stage.run_processAll_concat {earlier : List Stage} {last : Stage}
    (openly : ∀ stage ∈ earlier, stage.FailsOpenly σ) {call : Call} {response answer : Response}
    {w : World σ}
    (h : ((processAll (earlier ++ [last]) call response).run w).1 = .answered answer)
    (success : answer.isSuccess = true) :
    ∃ handedOn w', (processAll earlier call response).run w = (.answered handedOn, w') ∧
      ((processAll [last] call handedOn).run w').1 = .answered answer := by
  induction earlier generalizing response w with
  | nil => exact ⟨response, w, rfl, h⟩
  | cons stage rest ih =>
    have failsOpenly := openly stage (List.mem_cons_self ..) call response w
    rw [List.cons_append, processAll, Course.run_bind] at h
    rw [processAll, Course.run_bind]
    cases hstage : ((stage.process call response).run w).1 with
    | answered result =>
      rw [hstage] at h failsOpenly
      cases result with
      | ok next => exact ih (fun stage member => openly stage (List.mem_cons_of_mem _ member)) h
      | error e =>
        -- The error would be the answer, but the answer is a success.
        cases h
        exact absurd (Response.isSuccess_iff.mp success) (failsOpenly e rfl)
    | crashed =>
      rw [hstage] at h
      cases h
    | never =>
      rw [hstage] at h
      cases h

/-- A success of the signing is signed. -/
theorem Signer.run_processAll_stage {signer : Signer} {time : Option UInt64} {call : Call}
    {response answer : Response} {w : World σ}
    (h : ((Stage.processAll [signer.stage time] call response).run w).1 = .answered answer)
    (success : answer.isSuccess = true) : ∃ expires,
      expires = addTime (time.getD w.now) (response.ttl.getD signer.defaultTtl) ∧
      answer = .ok (signer.sign call.recipient expires call.data response.data).encode
        (some expires) := by
  have signed := signer.run_process time call response w
  rw [Stage.run_processAll_of_ok signed, Stage.run_processAll_nil] at h
  injection h with h
  refine ⟨_, rfl, ?_⟩
  cases hresponse : response.isSuccess with
  | true =>
    rw [processAt, if_pos hresponse] at h
    exact h.symm
  | false =>
    rw [signer.processAt_of_not_success _ call hresponse] at h
    rw [← h, hresponse] at success
    cases success

/-- Every success of a gateway that signs last carries an envelope that ends as long after the signing
as the response may be kept. Whoever trusts the signer accepts it until then and no longer, if it is
short enough for its length to fit 64 bits. -/
theorem verify_of_run_handle (t : Table) {earlier : List Stage} (signer : Signer)
    (time : Option UInt64) (openly : ∀ stage ∈ earlier, stage.FailsOpenly σ) (call : Call)
    (w : World σ) {answer : Response}
    (h : (((Gateway.mk t (earlier ++ [signer.stage time])).handle call).run w).1 = .answered answer)
    (success : answer.status = 200) :
    ∃ unsigned body expires,
      (((Gateway.mk t earlier).handle call).run w).1 = .answered unsigned ∧
      answer = .ok body (some expires) ∧
      expires.toNat = min
        ((time.getD w.now).toNat + (unsigned.ttl.getD signer.defaultTtl).toNat)
        (UInt64.size - 1) ∧
      (body.length < UInt64.size → ∀ (v : Verifier) (now : UInt64),
        (expires < now → ∃ detail,
          v.verify call.recipient call.data body now = .error (.unauthorized detail)) ∧
        (v.trusts signer.address = true →
          (signer.key.sign (responseDigest call.recipient expires call.data unsigned.data)).recover
            (responseDigest call.recipient expires call.data unsigned.data) = .ok signer.address →
          now ≤ expires →
          v.verify call.recipient call.data body now = .ok (unsigned.data, signer.address))) := by
  rw [← Response.isSuccess_iff] at success
  cases hdispatch : (t.plan (.ofCall call)).course.run w with
  | mk ending w' =>
    have clock : w'.now = w.now := by
      have := (t.plan (.ofCall call)).course.run_now w
      rwa [hdispatch] at this
    cases ending with
    | answered response =>
      rw [Gateway.run_handle_of_answered hdispatch] at h
      obtain ⟨unsigned, w'', hearlier, hlast⟩ := Stage.run_processAll_concat openly h success
      have clock' : w''.now = w'.now := by
        have := (Stage.processAll earlier call response).run_now w'
        rwa [hearlier] at this
      obtain ⟨expires, hexpires, hanswer⟩ := Signer.run_processAll_stage hlast success
      rw [clock', clock] at hexpires
      refine ⟨unsigned, _, expires, ?_, hanswer, ?_, ?_⟩
      · rw [Gateway.run_handle_of_answered (g := ⟨t, earlier⟩) hdispatch, hearlier]
      · rw [hexpires, toNat_addTime]
      · intro short v now
        constructor
        · intro ended
          exact ⟨_, v.verify_encode_of_ended call.recipient call.data short ended⟩
        · intro trusted recovers lasts
          exact v.verify_encode call.recipient call.data short lasts
            (recoverSigner_toBytes recovers) trusted
    | crashed =>
      rw [Gateway.handle, Table.dispatch, Course.run_bind, hdispatch] at h
      cases h
    | never =>
      rw [Gateway.handle, Table.dispatch, Course.run_bind, hdispatch] at h
      cases h

end Stages

namespace SignedReply

open DeclaredSuccess (signature selector_signature signer call)

/-- A function that returns nothing, to be kept for a minute. -/
def handler : Handler := fun _ _ => .done (.reply { ttl := some 60 })

/-- A table with the function. -/
def table : Table := Table.standard.add signature handler

/-- The account of the signer. -/
def account : Address := 0x7e5f4552091a69125d5dfcb7b8c2659029395bdf

/-- A world without records. -/
def world : World Memory := { store := Memory.empty, now := 1000 }

theorem run_plan_call : (table.plan (.ofCall call)).course.run world =
    (.answered (.ok [] (some 60)), world) := by
  have entry : table.get? 0x26121ff0 = some ⟨signature, .function handler⟩ := by
    rw [table, Table.get?_add, selector_signature, if_pos rfl]
  have hplan : table.plan (.ofCall call) = .invoke (.ofCall call) signature handler [] :=
    Table.planAt_eq_invoke_iff.mpr ⟨rfl, 0x26121ff0, [], rfl, entry, rfl⟩
  rw [hplan, Plan.run_course_invoke]
  rfl

/-- The marking hands the answer on as it is. -/
theorem run_marking : ((Integrity.stage {}).process call (.ok [] (some 60))).run world =
    (.answered (.ok (.ok [] (some 60))), world) := by
  have split : splitSelector call.data = .ok (0x26121ff0, []) := rfl
  have other : (0x26121ff0 : Selector) ≠ Abi.Signature.multicall.selector := by
    rw [Abi.Signature.selector_multicall]
    decide
  have unmarked : ({} : Integrity).affected call.data = none := by
    rw [Integrity.affected, Integrity.affectedAt]
    simp only [split]
    rw [if_neg (by decide), if_pos other]
  rw [Integrity.run_stage, Integrity.process, unmarked]
  rfl

/-- Before it is signed, the answer carries no data. -/
theorem run_handle_unsigned :
    (((Gateway.mk table [Integrity.stage {}]).handle call).run world).1 =
      .answered (.ok [] (some 60)) := by
  rw [Gateway.run_handle_of_answered (g := ⟨table, [Integrity.stage {}]⟩) run_plan_call,
    Stage.run_processAll_of_ok run_marking, Stage.run_processAll_nil]

/-- What is signed. -/
def digest : Word := 0xed597c579f8c33ee138c61cf1e154838a8814a0d325ef290cec06507ee21bdca

/-- The signature of the signer over what is signed recovers to its account. -/
theorem recover_sign : signer.address = account ∧
    responseDigest call.recipient 1060 call.data [] = digest ∧
    (signer.key.sign digest).recover digest = .ok account := by
  have signed : signer.key.sign digest =
      ⟨0xcee7184d10158f0adaf3f920ec9ef8a9447d646b7960608bba7d05ce60c9f1e2,
        0x102b45664e0f69c29ada08e570d95545920d6f5a9b0ce6c0721bfe71485ef7ab, false⟩ := by
    unfold signer digest
    decide +kernel
  rw [signed]
  unfold signer account call digest
  refine ⟨?_, ?_, ?_⟩
  all_goals decide +kernel

/-- The bytes of the envelope. -/
def body : Bytes := (signer.sign call.recipient 1060 call.data []).encode

theorem length_body : body.length < UInt64.size := by
  have signature : ∀ sig : Signature, sig.toBytes.length = 65 := by
    intro sig
    simp [Signature.toBytes]
  have short := (signer.sign call.recipient 1060 call.data []).length_encode_le
  rw [Signer.sign, signature] at short
  exact Nat.lt_of_le_of_lt short (by decide)

/-- The answer is signed when it is given, at the second 1000. -/
theorem run_handle_signed :
    (((Gateway.mk table ([Integrity.stage {}] ++ [signer.stage none])).handle call).run world).1 =
      .answered (.ok body (some 1060)) := by
  have signing := signer.run_process none call (.ok [] (some 60)) world
  rw [Gateway.run_handle_of_answered (g := ⟨table, [Integrity.stage {}] ++ [signer.stage none]⟩)
    run_plan_call, List.singleton_append, Stage.run_processAll_of_ok run_marking,
    Stage.run_processAll_of_ok signing, Stage.run_processAll_nil]
  rfl

end SignedReply

/-- A signed reply is accepted until its signature ends, and no longer. -/
theorem signed_reply_verified :
    (∀ stage ∈ [Integrity.stage {}], stage.FailsOpenly Memory) ∧
    (((Gateway.mk SignedReply.table
        ([Integrity.stage {}] ++ [DeclaredSuccess.signer.stage none])).handle
      DeclaredSuccess.call).run SignedReply.world).1 =
        .answered (.ok SignedReply.body (some 1060)) ∧
    (Verifier.mk [SignedReply.account]).verify DeclaredSuccess.call.recipient
      DeclaredSuccess.call.data SignedReply.body 1060 = .ok ([], SignedReply.account) ∧
    ∃ detail, (Verifier.mk [SignedReply.account]).verify DeclaredSuccess.call.recipient
      DeclaredSuccess.call.data SignedReply.body 1061 = .error (.unauthorized detail) := by
  have openly : ∀ stage ∈ [Integrity.stage {}], stage.FailsOpenly Memory := by
    intro stage member
    rw [List.mem_singleton.mp member]
    exact Integrity.failsOpenly_stage {}
  obtain ⟨unsigned, body, expires, hunsigned, hanswer, -, hverify⟩ :=
    verify_of_run_handle SignedReply.table DeclaredSuccess.signer none openly DeclaredSuccess.call
      SignedReply.world SignedReply.run_handle_signed rfl
  rw [SignedReply.run_handle_unsigned] at hunsigned
  cases hunsigned
  cases hanswer
  obtain ⟨address, digest, recovers⟩ := SignedReply.recover_sign
  have data : (Response.ok [] (some 60)).data = [] := rfl
  rw [data, digest, address] at hverify
  refine ⟨openly, SignedReply.run_handle_signed, ?_, ?_⟩
  · exact (hverify SignedReply.length_body _ 1060).2 (by simp [Verifier.trusts]) recovers
      (by decide)
  · exact (hverify SignedReply.length_body _ 1061).1 (by decide)

end OffchainNames
