import OffchainNames.Proofs.Abi.Decoding
import OffchainNames.Proofs.Settings.KeyText
import OffchainNames.Settings.Assembly

/-!
# What valid settings give

Checking settings and building from them read the same texts twice. Where no error was found, the address to
listen on and the domain are built, and the store and the owners fail for nothing that settings say: only the
database file and the endpoint of the remote chain, which lie outside of them, can still be at fault. The key is
checked for its form only, and its number has to be a secret scalar of the curve besides
(`Settings.built_of_isValid`).
-/

namespace OffchainNames

@[simp] theorem Issue.severity_error (path message : String) :
    (Issue.error path message).severity = .error := rfl

@[simp] theorem Issue.severity_warning (path message : String) :
    (Issue.warning path message).severity = .warning := rfl

/-- None of the issues is an error. -/
def NoErrors (issues : List Issue) : Prop := ∀ i ∈ issues, i.severity ≠ .error

namespace NoErrors

@[simp] theorem nil : NoErrors [] := by simp [NoErrors]

@[simp] theorem cons_iff {issue : Issue} {rest : List Issue} :
    NoErrors (issue :: rest) ↔ issue.severity ≠ .error ∧ NoErrors rest := List.forall_mem_cons

@[simp] theorem append_iff {first second : List Issue} :
    NoErrors (first ++ second) ↔ NoErrors first ∧ NoErrors second := List.forall_mem_append

@[simp] theorem issueIf_iff {condition : Bool} {issue : Issue} :
    NoErrors (issueIf condition issue) ↔ (condition = true → issue.severity ≠ .error) := by
  cases condition <;> simp [issueIf]

end NoErrors

/-! ## The sections -/

theorem ServerSettings.noErrors_issues_iff {s : ServerSettings} : NoErrors s.issues ↔
    (∃ address, Net.SocketAddress.parse? s.listen = some address) ∧
      (s.mount ≠ "" → "/".isPrefixOf s.mount = true ∧ s.mount.toList.getLast? ≠ some '/') ∧
      s.timeout ≠ 0 ∧ s.maxBody ≠ 0 := by
  simp [issues, Option.ne_none_iff_exists']

theorem SigningSettings.noErrors_issues_iff {s : SigningSettings} : NoErrors s.issues ↔
    ∃ key, s.key = some key ∧ isKeyText key = true := by
  cases key : s.key <;> simp [issues, key]

theorem DomainSettings.noErrors_issues_iff {s : DomainSettings} : NoErrors s.issues ↔
    ∀ raw, s.contract = some raw → isAddress raw = true := by
  cases contract : s.contract <;> simp [issues, contract, noAddress]

theorem StorageSettings.noErrors_issues_iff {s : StorageSettings} : NoErrors s.issues ↔
    (s.kind = .database → ∃ path, s.path = some path) := by
  simp [issues, Option.ne_none_iff_exists']

theorem OwnershipSettings.noErrors_issues_iff {s : OwnershipSettings} : NoErrors s.issues ↔
    (s.kind = .registry → (∃ endpoint, s.endpoint = some endpoint) ∧
      ∃ raw, s.registry = some raw ∧ isAddress raw = true) := by
  cases kind : s.kind <;> cases registry : s.registry <;>
    simp [issues, kind, registry, noAddress, Option.ne_none_iff_exists']

/-- No list of reserved keys is an error. -/
theorem ResolverSettings.noErrors_issues (s : ResolverSettings) : NoErrors s.issues := by
  simp [issues]

theorem Settings.isValid_iff {s : Settings} : s.isValid = true ↔
    NoErrors s.server.issues ∧ NoErrors s.signing.issues ∧ NoErrors s.domain.issues ∧
      NoErrors s.storage.issues ∧ NoErrors s.ownership.issues := by
  have all : s.isValid = true ↔ NoErrors s.issues := by simp [isValid, errors, NoErrors]
  rw [all]
  simp [issues, ResolverSettings.noErrors_issues]

/-! ## The parts -/

theorem readAddress_of_isAddress {raw : String} (written : isAddress raw = true) (path : String) :
    ∃ address, readAddress path raw = .ok address := by
  unfold isAddress at written
  unfold readAddress
  cases read : Address.parse raw with
  | ok address => exact ⟨address, rfl⟩
  | error e =>
    rw [read] at written
    cases written

namespace Settings

variable {s : Settings}

theorem listenAddress_of_noErrors (sound : NoErrors s.server.issues) :
    ∃ address, s.listenAddress = .ok address := by
  obtain ⟨⟨address, listens⟩, -⟩ := ServerSettings.noErrors_issues_iff.mp sound
  refine ⟨address, ?_⟩
  rw [listenAddress, listens]

theorem signingDomain_of_noErrors (sound : NoErrors s.domain.issues) :
    ∃ domain, s.signingDomain = .ok domain := by
  have written := DomainSettings.noErrors_issues_iff.mp sound
  unfold signingDomain
  cases contract : s.domain.contract with
  | none => exact ⟨_, rfl⟩
  | some raw =>
    obtain ⟨address, read⟩ :=
      readAddress_of_isAddress (written raw contract) "domain.verifying_contract"
    simp only [read]
    exact ⟨_, rfl⟩

theorem signer_of_key {key : String} (set : s.signing.key = some key)
    (written : isKeyText key = true) :
    s.signer = match SecretKey.ofNat? (Signer.keyNumber key) with
      | some secret => .ok ⟨secret, UInt64.ofNat s.signing.defaultTtl⟩
      | none => .error (.build .signer (.signing "invalid private key: signature error")) := by
  have made := Signer.ofHex_of_isKeyText written (UInt64.ofNat s.signing.defaultTtl)
  unfold signer
  rw [set, required, Except.ok_bind, made]
  cases SecretKey.ofNat? (Signer.keyNumber key) <;> rfl

theorem store_of_noErrors (sound : NoErrors s.storage.issues)
    (openDatabase : String → Except StoreError Tables) :
    (∃ store, s.store openDatabase = .ok store) ∨
      ∃ path e, s.storage.path = some path ∧ openDatabase path = .error e ∧
        s.store openDatabase = .error (.build .database (.store e)) := by
  have given := StorageSettings.noErrors_issues_iff.mp sound
  cases kind : s.storage.kind with
  | memory =>
    refine .inl ⟨.memory .empty, ?_⟩
    rw [store, kind]
  | database =>
    obtain ⟨path, set⟩ := given kind
    cases opened : openDatabase path with
    | ok tables =>
      refine .inl ⟨.tables tables, ?_⟩
      simp only [store, kind, set, required, Except.ok_bind, opened]
    | error e =>
      refine .inr ⟨path, e, set, opened, ?_⟩
      simp only [store, kind, set, required, Except.ok_bind, opened]

theorem owners_of_noErrors (sound : NoErrors s.ownership.issues) :
    (∃ ownership, s.owners = .ok ownership) ∨
      ∃ endpoint detail, s.ownership.endpoint = some endpoint ∧
        reachEndpoint endpoint = .error detail ∧
        s.owners = .error (.build .registry
          (.internal ("RPC connection to '" ++ endpoint ++ "' failed: " ++ detail))) := by
  have given := OwnershipSettings.noErrors_issues_iff.mp sound
  cases kind : s.ownership.kind with
  | stored =>
    refine .inl ⟨.stored, ?_⟩
    rw [owners, kind]
  | registry =>
    obtain ⟨⟨endpoint, reached⟩, raw, set, written⟩ := given kind
    obtain ⟨contract, read⟩ := readAddress_of_isAddress written "ownership.registry"
    cases reach : reachEndpoint endpoint with
    | ok done =>
      refine .inl ⟨.registry contract, ?_⟩
      simp only [owners, kind, reached, set, required, Except.ok_bind, read, reach]
    | error detail =>
      refine .inr ⟨endpoint, detail, reached, reach, ?_⟩
      simp only [owners, kind, reached, set, required, Except.ok_bind, read, reach]

/-- Valid settings give the address to listen on and the domain, and a signer exactly if the number of the key
is a secret scalar of the curve. The store fails only as the database file does, and the owners only as the
endpoint of the remote chain does. -/
theorem built_of_isValid (valid : s.isValid = true) :
    (∃ address, s.listenAddress = .ok address) ∧
    (∃ domain, s.signingDomain = .ok domain) ∧
    (∃ key, s.signing.key = some key ∧
      (0 < Signer.keyNumber key ∧ Signer.keyNumber key < Secp256k1.groupOrder →
        ∃ signer, s.signer = .ok signer ∧ signer.key.scalar = Signer.keyNumber key) ∧
      (¬ (0 < Signer.keyNumber key ∧ Signer.keyNumber key < Secp256k1.groupOrder) →
        s.signer = .error (.build .signer (.signing "invalid private key: signature error")))) ∧
    (∀ openDatabase, (∃ store, s.store openDatabase = .ok store) ∨
      ∃ path e, s.storage.path = some path ∧ openDatabase path = .error e ∧
        s.store openDatabase = .error (.build .database (.store e))) ∧
    ((∃ ownership, s.owners = .ok ownership) ∨
      ∃ endpoint detail, s.ownership.endpoint = some endpoint ∧
        reachEndpoint endpoint = .error detail ∧
        s.owners = .error (.build .registry
          (.internal ("RPC connection to '" ++ endpoint ++ "' failed: " ++ detail)))) := by
  obtain ⟨server, signing, domain, storage, ownership⟩ := isValid_iff.mp valid
  obtain ⟨key, set, written⟩ := SigningSettings.noErrors_issues_iff.mp signing
  have made := signer_of_key set written
  refine ⟨listenAddress_of_noErrors server, signingDomain_of_noErrors domain, ⟨key, set, ?_, ?_⟩,
    store_of_noErrors storage, owners_of_noErrors ownership⟩
  · intro range
    rw [SecretKey.ofNat?, dif_pos range] at made
    exact ⟨_, made, rfl⟩
  · intro range
    rw [SecretKey.ofNat?, dif_neg range] at made
    exact made

end Settings

namespace ChainSettings

/-- The text of the key 1. -/
def keyText : String := "0x0000000000000000000000000000000000000000000000000000000000000001"

/-- Settings with a key, a database file and a registry. -/
def settings : Settings :=
  { signing := { key := some keyText }
    domain := { contract := some "0x5FbDB2315678afecb367f032d93F642f64180aa3" }
    storage := { kind := .database, path := some "gateway.db" }
    ownership :=
      { kind := .registry, endpoint := some "http://localhost:8545"
        registry := some "0x00000000000C2E074eC69A0dFb2997BA6C7d2e1e" } }

theorem settings_told : settings.isValid = true ∧ Signer.keyNumber keyText = 1 := by
  decide

end ChainSettings

/-- Settings with a database file and a registry are valid, and give a signer with their key. -/
theorem Settings.chain_settings_built : ChainSettings.settings.isValid = true ∧
    (∃ signer, ChainSettings.settings.signer = .ok signer ∧ signer.key.scalar = 1) ∧
    (∃ store, ChainSettings.settings.store (fun _ => .ok .empty) = .ok store) ∧
    ∃ domain, ChainSettings.settings.signingDomain = .ok domain := by
  obtain ⟨valid, one⟩ := ChainSettings.settings_told
  obtain ⟨-, domain, ⟨key, set, made, -⟩, stored, -⟩ := built_of_isValid valid
  cases set
  rw [one] at made
  refine ⟨valid, made (by decide), ?_, domain⟩
  rcases stored fun _ => .ok .empty with store | ⟨_, _, _, failed, _⟩
  · exact store
  · cases failed

namespace ZeroKey

/-- The text of zero, with as many digits as a key has. -/
def keyText : String := "0x0000000000000000000000000000000000000000000000000000000000000000"

/-- Settings with zero as the key. -/
def settings : Settings := { signing := { key := some keyText } }

theorem settings_told : settings.isValid = true ∧ isKeyText keyText = true ∧
    Signer.keyNumber keyText = 0 := by
  decide

end ZeroKey

/-- Not all valid settings give a signer: zero is written as a key is, and is none. -/
theorem Settings.zero_key_valid_unsigned : ZeroKey.settings.isValid = true ∧
    ZeroKey.settings.signer =
      .error (.build .signer (.signing "invalid private key: signature error")) ∧
    ¬ ∀ s : Settings, s.isValid = true → ∃ signer, s.signer = .ok signer := by
  obtain ⟨valid, written, zero⟩ := ZeroKey.settings_told
  have failed : ZeroKey.settings.signer =
      .error (.build .signer (.signing "invalid private key: signature error")) := by
    rw [Settings.signer_of_key rfl written, zero]
    rfl
  refine ⟨valid, failed, fun all => ?_⟩
  obtain ⟨signer, made⟩ := all ZeroKey.settings valid
  rw [failed] at made
  cases made

end OffchainNames
