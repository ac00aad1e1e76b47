import OffchainNames.Proofs.Abi.Injectivity
import OffchainNames.Proofs.Envelope

/-!
# What signed digests commit to

What is signed is a digest of fields of fixed widths, in which names, versions, calldata, requests and
responses stand by digests of their own. So digests that are the same are followed down level by level: all
that was hashed is the same, or at one level two different byte strings have the same digest (`Collision`).
The digest of a message so tells the domain and the message, and is the digest of no response
(`Message.digest_binds`). The digest of a response tells the contract, the time, the request and the data,
and where it is checked, the time and the data are those of the envelope (`checkedDigest_binds`).
-/

namespace OffchainNames

/-- At one place two lists have different byte strings with the same digest. -/
def Collision (hashed others : List Bytes) : Prop :=
  ∃ pair ∈ hashed.zip others, pair.1 ≠ pair.2 ∧ keccak256 pair.1 = keccak256 pair.2

/-- At each place the byte strings of two lists are told apart by their digests. -/
def Told (hashed others : List Bytes) : Prop :=
  ∀ pair ∈ hashed.zip others, keccak256 pair.1 = keccak256 pair.2 → pair.1 = pair.2

theorem told_or_collision (hashed others : List Bytes) :
    Told hashed others ∨ Collision hashed others := by
  refine or_iff_not_imp_right.mpr ?_
  intro free pair member same
  by_contra differ
  exact free ⟨pair, member, differ, same⟩

theorem concatWords_inj {words others : List Word} (same : concatWords words = concatWords others) :
    words = others := by
  induction words generalizing others with
  | nil =>
    cases others with
    | nil => rfl
    | cons other others =>
      have lengths := congrArg List.length same
      simp [concatWords] at lengths
      omega
  | cons word words ih =>
    cases others with
    | nil =>
      have lengths := congrArg List.length same
      simp [concatWords] at lengths
    | cons other others =>
      simp only [concatWords, List.flatMap_cons] at same
      obtain ⟨first, rest⟩ := List.append_inj same (by simp)
      rw [Bytes.ofBits_inj (by decide) first, ih rest]

theorem Address.setWidth_inj {a b : Address} (same : a.setWidth 256 = b.setWidth 256) : a = b := by
  bv_omega

/-! ## Responses -/

/-- The byte string whose digest is signed for a response. -/
def responsePreimage (sender : Address) (expires : UInt64) (request response : Bytes) : Bytes :=
  [0x19, 0x00] ++ Bytes.ofBits sender ++ Bytes.ofNat 8 expires.toNat
    ++ Bytes.ofBits (keccak256 request) ++ Bytes.ofBits (keccak256 response)

section Response

variable {sender sender' : Address} {expires expires' : UInt64}
  {request request' response response' : Bytes}

theorem responseDigest_eq (sender : Address) (expires : UInt64) (request response : Bytes) :
    responseDigest sender expires request response =
      keccak256 (responsePreimage sender expires request response) := rfl

theorem length_responsePreimage (sender : Address) (expires : UInt64) (request response : Bytes) :
    (responsePreimage sender expires request response).length = 94 := by
  simp [responsePreimage]

/-- The byte strings that are hashed for the digest of a response. -/
def responseHashed (sender : Address) (expires : UInt64) (request response : Bytes) : List Bytes :=
  [request, response, responsePreimage sender expires request response]

/-- The digest tells all that a response is signed with, unless something that was hashed collides. -/
theorem responseDigest_told
    (same : responseDigest sender expires request response =
      responseDigest sender' expires' request' response') :
    (sender = sender' ∧ expires = expires' ∧ request = request' ∧ response = response') ∨
      Collision (responseHashed sender expires request response)
        (responseHashed sender' expires' request' response') := by
  refine (told_or_collision _ _).imp_left ?_
  intro told
  simp only [Told, responseHashed, List.zip_cons_cons, List.forall_mem_cons] at told
  obtain ⟨hrequest, hresponse, whole, -⟩ := told
  rw [responseDigest_eq, responseDigest_eq] at same
  have bytes := whole same
  -- All fields are of fixed widths, so that they are cut off one by one.
  simp only [responsePreimage, List.append_assoc] at bytes
  obtain ⟨senders, bytes⟩ := List.append_inj (List.append_cancel_left bytes) (by simp)
  obtain ⟨times, bytes⟩ := List.append_inj bytes (by simp)
  obtain ⟨requests, responses⟩ := List.append_inj bytes (by simp)
  exact ⟨Bytes.ofBits_inj (by decide) senders, Bytes.ofNat_toNat_inj times,
    hrequest (Bytes.ofBits_inj (by decide) requests),
    hresponse (Bytes.ofBits_inj (by decide) responses)⟩

end Response

/-! ## Messages -/

/-- The encoding of a domain. -/
def Domain.encoding (domain : Domain) : Bytes :=
  concatWords [digestText Domain.type, digestText domain.name, digestText domain.version,
    BitVec.ofNat 256 domain.chainId.toNat, domain.contract.setWidth 256]

theorem Domain.separator_eq (domain : Domain) : domain.separator = keccak256 domain.encoding := rfl

/-- A domain is told by its encoding, but for the texts that are hashed in it. -/
theorem Domain.eq_of_encoding {a b : Domain} (same : a.encoding = b.encoding)
    (name : digestText a.name = digestText b.name → a.name = b.name)
    (version : digestText a.version = digestText b.version → a.version = b.version) : a = b := by
  have words := concatWords_inj same
  simp only [List.cons.injEq, true_and, and_true] at words
  obtain ⟨hname, hversion, chainId, contract⟩ := words
  cases a
  cases b
  rw [Domain.mk.injEq]
  exact ⟨name hname, version hversion, Word.ofNat_toNat_inj chainId, Address.setWidth_inj contract⟩

namespace Message

/-- The encoding of a message. -/
def encoding (message : Message) : Bytes :=
  concatWords [digestText Message.type, keccak256 message.callData, message.sender.setWidth 256,
    BitVec.ofNat 256 message.expiration.toNat]

theorem fields_eq (message : Message) : message.fields = keccak256 message.encoding := rfl

/-- A message is told by its encoding, but for the calldata that is hashed in it. -/
theorem eq_of_encoding {a b : Message} (same : a.encoding = b.encoding)
    (callData : keccak256 a.callData = keccak256 b.callData → a.callData = b.callData) : a = b := by
  have words := concatWords_inj same
  simp only [List.cons.injEq, true_and, and_true] at words
  obtain ⟨hcallData, sender, expiration⟩ := words
  cases a
  cases b
  rw [Message.mk.injEq]
  exact ⟨callData hcallData, Address.setWidth_inj sender, Word.ofNat_toNat_inj expiration⟩

/-- The byte string whose digest is signed to agree to a message under a domain. -/
def preimage (message : Message) (domain : Domain) : Bytes :=
  [0x19, 0x01] ++ concatWords [domain.separator, message.fields]

theorem digest_eq (message : Message) (domain : Domain) :
    message.digest domain = keccak256 (message.preimage domain) := rfl

/-- The byte strings that are hashed for the digest of a message, but for the types, which are always the
same. -/
def hashed (message : Message) (domain : Domain) : List Bytes :=
  [Bytes.ofString domain.name, Bytes.ofString domain.version, message.callData, domain.encoding,
    message.encoding, message.preimage domain]

variable {message message' : Message} {domain domain' : Domain}

/-- The digest tells the domain and the message, unless something that was hashed collides. -/
theorem digest_told (same : message.digest domain = message'.digest domain') :
    (domain = domain' ∧ message = message') ∨
      Collision (message.hashed domain) (message'.hashed domain') := by
  refine (told_or_collision _ _).imp_left ?_
  intro told
  simp only [Told, hashed, List.zip_cons_cons, List.forall_mem_cons] at told
  obtain ⟨name, version, callData, separator, fields, whole, -⟩ := told
  rw [digest_eq, digest_eq] at same
  -- From the outermost digest inwards: what was hashed is the same, and so are the digests in it.
  have words := concatWords_inj (List.append_cancel_left (whole same))
  simp only [List.cons.injEq, and_true] at words
  rw [Domain.separator_eq, Domain.separator_eq, fields_eq, fields_eq] at words
  constructor
  · refine Domain.eq_of_encoding (separator words.1) ?_ ?_
    · exact fun same => Bytes.ofString_inj (name same)
    · exact fun same => Bytes.ofString_inj (version same)
  · exact eq_of_encoding (fields words.2) callData

/-- What is signed for a message is never what is signed for a response. -/
theorem preimage_ne_responsePreimage (message : Message) (domain : Domain) (sender : Address)
    (expires : UInt64) (request response : Bytes) :
    message.preimage domain ≠ responsePreimage sender expires request response := by
  intro same
  -- The second byte is 1 for all messages and 0 for all responses.
  simp [preimage, responsePreimage] at same

/-- The digest of a message tells the domain and the message, unless two different byte strings that were
hashed at one place have the same digest; and it is the digest of a response only if what is signed for the
two collides. -/
theorem digest_binds (message message' : Message) (domain domain' : Domain) :
    (message.digest domain = message'.digest domain' →
      (domain = domain' ∧ message = message') ∨
        Collision (message.hashed domain) (message'.hashed domain')) ∧
    ∀ sender expires request response,
      message.digest domain = responseDigest sender expires request response ↔
        Collision [message.preimage domain] [responsePreimage sender expires request response] := by
  refine ⟨digest_told, ?_⟩
  intro sender expires request response
  rw [digest_eq, responseDigest_eq]
  have differ := message.preimage_ne_responsePreimage domain sender expires request response
  simp [Collision, differ]

end Message

namespace SplitName

/-- A domain whose name is put together. -/
def joined : Domain := ⟨"Offchain" ++ "Names", "1", 1, 0xd0⟩

/-- A domain with this name, for a chain. -/
def onChain (chainId : UInt64) : Domain := ⟨"OffchainNames", "1", chainId, 0xd0⟩

/-- A message. -/
def message : Message := ⟨[0x26, 0x12, 0x1f, 0xf0], 0xc0, 60⟩

/-- How the name is put together makes no difference, and the domain is told. On another chain the digest is
another one, unless something that was hashed collides. -/
theorem digest_tells_chain :
    message.digest joined = message.digest (onChain 1) ∧
    ((joined = onChain 1 ∧ message = message) ∨
      Collision (message.hashed joined) (message.hashed (onChain 1))) ∧
    (message.digest (onChain 1) = message.digest (onChain 2) →
      Collision (message.hashed (onChain 1)) (message.hashed (onChain 2))) := by
  have name : "Offchain" ++ "Names" = "OffchainNames" := by decide
  have same : message.digest joined = message.digest (onChain 1) := by
    rw [joined, name, onChain]
  refine ⟨same, (Message.digest_binds ..).1 same, ?_⟩
  intro same
  obtain ⟨domain, -⟩ | collision := (Message.digest_binds ..).1 same
  · exact absurd (congrArg Domain.chainId domain) (by decide)
  · exact collision

end SplitName

/-! ## Checked envelopes -/

/-- The digest that the signature in an envelope is checked against, for a request from a contract. -/
def checkedDigest (sender : Address) (request body : Bytes) : Except Error Word :=
  (Envelope.decode body).map fun e => responseDigest sender e.expires request e.data

theorem checkedDigest_eq_ok_iff {sender : Address} {request body : Bytes} {digest : Word} :
    checkedDigest sender request body = .ok digest ↔
      ∃ e, Envelope.decode body = .ok e ∧ responseDigest sender e.expires request e.data = digest :=
  Except.map_eq_ok_iff

/-- An envelope is accepted iff it has not ended and its signature over this digest recovers to a trusted
account. -/
theorem Verifier.verify_eq_ok_iff {v : Verifier} {sender : Address} {request body data : Bytes}
    {now : UInt64} {account : Address} : v.verify sender request body now = .ok (data, account) ↔
      ∃ e digest, Envelope.decode body = .ok e ∧ checkedDigest sender request body = .ok digest ∧
        now ≤ e.expires ∧ recoverSigner e.signature digest = .ok account ∧
        v.trusts account = true ∧ e.data = data := by
  unfold verify checkedDigest
  cases decoded : Envelope.decode body with
  | error cause => simp
  | ok e =>
    simp only [Except.ok.injEq, Except.map, exists_and_left, exists_eq_left', ← UInt64.not_lt]
    by_cases ended : e.expires < now
    · simp [ended]
    · rw [if_neg ended]
      cases recovered : recoverSigner e.signature (responseDigest sender e.expires request e.data) with
      | error cause => simp
      | ok signer =>
        by_cases trusted : v.trusts signer = true
        · simp only [trusted, if_true, Except.ok.injEq, Prod.mk.injEq]
          constructor
          · rintro ⟨rfl, rfl⟩
            exact ⟨ended, rfl, trusted, rfl⟩
          · rintro ⟨-, rfl, -, rfl⟩
            exact ⟨rfl, rfl⟩
        · simp only [trusted, Bool.false_eq_true, if_false, Except.ok.injEq]
          constructor
          · intro accepted
            cases accepted
          · rintro ⟨-, rfl, trusts, -⟩
            exact absurd trusts trusted

/-- The digest of a response tells the contract, the time, the request and the data, unless two requests, two
responses or two of the 94 bytes that are hashed last are different and have the same digest. What is checked
so tells the contract, the request and what the envelope says, and nothing is accepted but for a signature
over it. -/
theorem checkedDigest_binds (v : Verifier) (sender sender' : Address) (expires expires' : UInt64)
    (request request' response response' body body' : Bytes) (now : UInt64) :
    (responsePreimage sender expires request response).length = 94 ∧
    (responseDigest sender expires request response =
        responseDigest sender' expires' request' response' →
      (sender = sender' ∧ expires = expires' ∧ request = request' ∧ response = response') ∨
        Collision (responseHashed sender expires request response)
          (responseHashed sender' expires' request' response')) ∧
    (∀ digest, checkedDigest sender request body = .ok digest →
      checkedDigest sender' request' body' = .ok digest →
      ∃ e e', Envelope.decode body = .ok e ∧ Envelope.decode body' = .ok e' ∧
        ((sender = sender' ∧ e.expires = e'.expires ∧ request = request' ∧ e.data = e'.data) ∨
          Collision (responseHashed sender e.expires request e.data)
            (responseHashed sender' e'.expires request' e'.data))) ∧
    ∀ data account, v.verify sender request body now = .ok (data, account) ↔
      ∃ e digest, Envelope.decode body = .ok e ∧ checkedDigest sender request body = .ok digest ∧
        now ≤ e.expires ∧ recoverSigner e.signature digest = .ok account ∧
        v.trusts account = true ∧ e.data = data := by
  refine ⟨length_responsePreimage .., responseDigest_told, ?_, fun _ _ => v.verify_eq_ok_iff⟩
  intro digest checked checked'
  obtain ⟨e, decoded, rfl⟩ := checkedDigest_eq_ok_iff.mp checked
  obtain ⟨e', decoded', same⟩ := checkedDigest_eq_ok_iff.mp checked'
  exact ⟨e, e', decoded, decoded', responseDigest_told same.symm⟩

namespace SignedReply

open DeclaredSuccess (call)

/-- What the signer signed, in an envelope without the signature. -/
def stripped : Envelope := ⟨[], 1060, []⟩

theorem decode_stripped : Envelope.decode stripped.encode = .ok stripped :=
  Envelope.decode_encode stripped (Nat.lt_of_le_of_lt stripped.length_encode_le (by decide))

/-- A signed reply and what is left of it without the signature are checked against one digest, and say the
same, unless something that was hashed collides. The reply is accepted up to its last second. -/
theorem reply_told :
    responseDigest call.recipient 1060 call.data [] =
      responseDigest call.recipient (addTime 1000 60) call.data [] ∧
    ((1060 : UInt64) = addTime 1000 60 ∨
      Collision (responseHashed call.recipient 1060 call.data [])
        (responseHashed call.recipient (addTime 1000 60) call.data [])) ∧
    checkedDigest call.recipient call.data body = .ok digest ∧
    checkedDigest call.recipient call.data stripped.encode = .ok digest ∧
    (∃ e e', Envelope.decode body = .ok e ∧ Envelope.decode stripped.encode = .ok e' ∧
      ((e.expires = e'.expires ∧ e.data = e'.data) ∨
        Collision (responseHashed call.recipient e.expires call.data e.data)
          (responseHashed call.recipient e'.expires call.data e'.data))) ∧
    (Verifier.mk [account]).verify call.recipient call.data body 1060 = .ok ([], account) := by
  obtain ⟨address, signed, recovers⟩ := recover_sign
  have decoded := Envelope.decode_encode _ length_body
  have checked : checkedDigest call.recipient call.data body = .ok digest :=
    checkedDigest_eq_ok_iff.mpr ⟨_, decoded, signed⟩
  have checked' : checkedDigest call.recipient call.data stripped.encode = .ok digest :=
    checkedDigest_eq_ok_iff.mpr ⟨_, decode_stripped, signed⟩
  have time : (1060 : UInt64) = addTime 1000 60 := by decide
  have same : responseDigest call.recipient 1060 call.data [] =
      responseDigest call.recipient (addTime 1000 60) call.data [] := by
    rw [← time]
  obtain ⟨-, told, agree, accepted⟩ := checkedDigest_binds ⟨[account]⟩ call.recipient
    call.recipient 1060 (addTime 1000 60) call.data call.data [] [] body stripped.encode 1060
  refine ⟨same, (told same).imp_left fun all => all.2.1, checked, checked', ?_, ?_⟩
  · obtain ⟨e, e', read, read', told⟩ := agree _ checked checked'
    exact ⟨e, e', read, read', told.imp_left fun all => ⟨all.2.1, all.2.2.2⟩⟩
  · refine (accepted _ _).mpr ⟨_, _, decoded, checked, UInt64.le_refl _, ?_, ?_, rfl⟩
    · rw [Signer.sign, signed]
      exact recoverSigner_toBytes recovers
    · simp [Verifier.trusts]

end SignedReply

end OffchainNames
