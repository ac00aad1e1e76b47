import OffchainNames.Proofs.Abi.Conforming
import OffchainNames.Proofs.Arguments
import OffchainNames.Response

/-!
# Typed access

An access reads arguments of some types, and arguments that belong to such types are read: only a number of
more than 64 bits, which its type may allow, is too large (`Arguments.Access.error?_eq_some_iff`). What an
access fails with can be told from other errors by the answer (`Error.ToldAsAccess`): from all that are no
malformed calls by the status or the first word of the message (`Error.not_toldAsAccess_of_message`), and from
the other malformed calls by the words after that (`Error.not_toldAsAccess_malformedRequest`).
-/

namespace OffchainNames

namespace Arguments

/-- The position of the argument that is accessed. -/
def Access.position : Access → Nat
  | word i | address i | uint i | uint64 i | string i | bytes i | bytesArray i => i

/-- Whether an access reads arguments of a type. -/
def Access.reads : Access → Abi.Ty → Bool
  | word _, .fixedBytes size => size == 32
  | address _, .address => true
  | uint _, .uint _ => true
  | uint64 _, .uint _ => true
  | string _, .string => true
  | bytes _, .bytes => true
  | bytesArray _, .array .bytes => true
  | _, _ => false

variable {args : Arguments} {types : List Abi.Ty}

/-- At the place of a type stands an argument that belongs to it. -/
theorem getElem?_of_belong {i : Nat} {ty : Abi.Ty} (belong : List.Forall₂ Abi.Belongs args types)
    (declared : types[i]? = some ty) : ∃ value, args[i]? = some value ∧ Abi.Belongs value ty := by
  induction belong generalizing i with
  | nil => cases declared
  | cons belongs rest ih =>
    cases i with
    | zero =>
      cases declared
      exact ⟨_, rfl, belongs⟩
    | succ i => exact ih declared

section Found

variable {i bits : Nat} {w : Word}

theorem word_of_found (found : args[i]? = some (.fixedBytes w 32)) : args.word i = .ok w := by
  simp only [word, get, found]

theorem address_of_found {a : Address} (found : args[i]? = some (.address a)) :
    args.address i = .ok a := by
  simp only [address, get, found]

theorem uint_of_found (found : args[i]? = some (.uint w bits)) : args.uint i = .ok w := by
  simp only [uint, get, found]

theorem uint64_of_found (found : args[i]? = some (.uint w bits)) :
    args.uint64 i =
      if w.toNat < UInt64.size then .ok (UInt64.ofNat w.toNat) else .error (tooLarge i) := by
  simp only [uint64, uint_of_found found, tooLarge]

theorem string_of_found {text : String} (found : args[i]? = some (.string text)) :
    args.string i = .ok text := by
  simp only [string, get, found]

theorem bytes_of_found {content : Bytes} (found : args[i]? = some (.bytes content)) :
    args.bytes i = .ok content := by
  simp only [bytes, get, found]

theorem bytesArray_of_found {values : List Abi.Value} (found : args[i]? = some (.array values)) :
    args.bytesArray i = elements i values := by
  simp only [bytesArray, get, found]

end Found

/-- An access to an argument of a type that it reads fails for a number of more than 64 bits only. -/
theorem Access.error?_eq_some_iff {access : Access} {ty : Abi.Ty} {e : Error}
    (belong : List.Forall₂ Abi.Belongs args types) (declared : types[access.position]? = some ty)
    (reads : access.reads ty = true) :
    access.error? args = some e ↔
      ∃ i w bits, access = .uint64 i ∧ args[i]? = some (.uint w bits) ∧ UInt64.size ≤ w.toNat ∧
        e = tooLarge i := by
  obtain ⟨value, found, belongs⟩ := getElem?_of_belong belong declared
  cases access with
  | word i =>
    cases ty with
    | fixedBytes size =>
      obtain rfl : size = 32 := beq_iff_eq.mp reads
      obtain ⟨w, rfl⟩ := Abi.belongs_fixedBytes_iff.mp belongs
      simp [error?, word_of_found (i := i) found]
    | _ => cases reads
  | address i =>
    cases ty with
    | address =>
      obtain ⟨a, rfl⟩ := Abi.belongs_address_iff.mp belongs
      simp [error?, address_of_found (i := i) found]
    | _ => cases reads
  | uint i =>
    cases ty with
    | uint bits =>
      obtain ⟨w, rfl⟩ := Abi.belongs_uint_iff.mp belongs
      simp [error?, uint_of_found (i := i) found]
    | _ => cases reads
  | uint64 i =>
    cases ty with
    | uint bits =>
      obtain ⟨w, rfl⟩ := Abi.belongs_uint_iff.mp belongs
      rw [error?, uint64_of_found (i := i) found]
      constructor
      · intro failed
        split_ifs at failed with fits
        · cases failed
        · cases failed
          exact ⟨i, w, bits, rfl, found, Nat.le_of_not_lt fits, rfl⟩
      · rintro ⟨i', w', bits', same, found', large, rfl⟩
        obtain rfl : i = i' := Access.uint64.inj same
        obtain ⟨rfl, rfl⟩ := Abi.Value.uint.inj (Option.some.inj (found.symm.trans found'))
        rw [if_neg (Nat.not_lt.mpr large), Except.error?_error]
    | _ => cases reads
  | string i =>
    cases ty with
    | string =>
      obtain ⟨text, rfl⟩ := Abi.belongs_string_iff.mp belongs
      simp [error?, string_of_found (i := i) found]
    | _ => cases reads
  | bytes i =>
    cases ty with
    | bytes =>
      obtain ⟨content, rfl⟩ := Abi.belongs_bytes_iff.mp belongs
      simp [error?, bytes_of_found (i := i) found]
    | _ => cases reads
  | bytesArray i =>
    cases ty with
    | array element =>
      cases element with
      | bytes =>
        obtain ⟨values, all, rfl⟩ := Abi.belongs_array_iff.mp belongs
        obtain ⟨calls, rfl⟩ := Abi.eq_map_of_belong_bytes all
        simp [error?, bytesArray_of_found (i := i) found, elements_map]
      | _ => cases reads
    | _ => cases reads

end Arguments

/-! ## How errors of access are told -/

/-- Neither of two texts starts with the other. -/
def Apart (a b : String) : Prop := ¬ a.toList <+: b.toList ∧ ¬ b.toList <+: a.toList

instance : DecidableRel Apart := fun _ _ => inferInstanceAs (Decidable (_ ∧ _))

theorem Apart.append_ne {a b : String} (apart : Apart a b) (x y : String) : a ++ x ≠ b ++ y := by
  intro same
  have lists := congrArg String.toList same
  rw [String.toList_append, String.toList_append] at lists
  have first : a.toList <+: b.toList ++ y.toList := ⟨x.toList, lists⟩
  rcases List.prefix_or_prefix_of_prefix first (List.prefix_append ..) with h | h
  · exact apart.1 h
  · exact apart.2 h

/-- Malformed calls are told by their details. -/
theorem Error.ofError_malformedRequest_inj {detail detail' : String}
    (same : Response.ofError (.malformedRequest detail) = .ofError (.malformedRequest detail')) :
    detail = detail' := by
  have texts : "malformed request: " ++ detail = "malformed request: " ++ detail' :=
    Body.message.inj (congrArg Response.body same)
  have lists := congrArg String.toList texts
  rw [String.toList_append, String.toList_append] at lists
  exact String.toList_inj.mp (List.append_cancel_left lists)

namespace Arguments

/-- What the errors of access start with, after the wording that all malformed calls share. -/
def openings : List String := ["missing argument ", "argument "]

theorem AccessError.detail_eq {e : Error} (h : AccessError e) :
    ∃ opening ∈ openings, ∃ rest, e = .malformedRequest (opening ++ rest) := by
  have argument : "argument " ∈ openings := List.mem_cons_of_mem _ (List.mem_cons_self ..)
  cases h with
  | missing i => exact ⟨_, List.mem_cons_self .., toString i, rfl⟩
  | mismatch i expected value =>
    refine ⟨_, argument, toString i ++ (": expected " ++ (expected ++ (", got " ++
      value.typeName?.getD "unknown"))), ?_⟩
    simp only [Arguments.mismatch, String.append_assoc]
  | tooLarge i =>
    refine ⟨_, argument, toString i ++ " does not fit in uint64", ?_⟩
    simp only [Arguments.tooLarge, String.append_assoc]

theorem AccessError.eq_of_ofError {a b : Error} (ha : AccessError a) (hb : AccessError b)
    (same : Response.ofError a = .ofError b) : a = b := by
  obtain ⟨opening, -, rest, rfl⟩ := ha.detail_eq
  obtain ⟨opening', -, rest', rfl⟩ := hb.detail_eq
  rw [Error.ofError_malformedRequest_inj same]

end Arguments

namespace Error

/-- An error is told as one of access: the answer has the status and the message of such an error. -/
def ToldAsAccess (cause : Error) : Prop :=
  ∃ e, Arguments.AccessError e ∧ Response.ofError cause = .ofError e

variable {cause : Error}

theorem not_toldAsAccess_of_status (h : cause.status ≠ 400) : ¬ cause.ToldAsAccess := by
  rintro ⟨e, access, same⟩
  exact h ((congrArg Response.status same).trans access.status)

theorem not_toldAsAccess_of_message {start rest : String} (message : cause.message = start ++ rest)
    (apart : Apart start "malformed request: ") : ¬ cause.ToldAsAccess := by
  rintro ⟨e, access, same⟩
  obtain ⟨opening, -, detail, rfl⟩ := access.detail_eq
  have texts : cause.message = "malformed request: " ++ (opening ++ detail) :=
    Body.message.inj (congrArg Response.body same)
  rw [message] at texts
  exact apart.append_ne _ _ texts

theorem not_toldAsAccess_malformedRequest {start rest : String}
    (apart : ∀ opening ∈ Arguments.openings, Apart start opening) :
    ¬ (malformedRequest (start ++ rest)).ToldAsAccess := by
  rintro ⟨e, access, same⟩
  obtain ⟨opening, member, detail, rfl⟩ := access.detail_eq
  exact (apart opening member).append_ne _ _ (ofError_malformedRequest_inj same)

theorem not_toldAsAccess_store (c : StoreError) : ¬ (store c).ToldAsAccess := by
  cases c with
  | alreadyRegistered node =>
    exact @not_toldAsAccess_of_message _ "domain already registered" "" rfl (by decide)
  | medium | lock | interrupted | notFound | corrupt =>
    exact not_toldAsAccess_of_message rfl (by decide)

end Error

end OffchainNames
