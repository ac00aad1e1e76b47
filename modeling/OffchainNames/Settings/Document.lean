import OffchainNames.Settings.Basic
import OffchainNames.Toml.Document
import OffchainNames.Toml.Quoted

/-!
# Settings as a document

A document has a table for each part of the settings. Of the document itself every key must be known; of
a part unknown keys are passed over, and it may also be a list of its values in order. What is not set
keeps its standard value. Writing leaves out what is not set and has no standard value.
-/

namespace OffchainNames

namespace Toml

/-- A part of a document: values by key, or values by place. -/
inductive Part where
  | named (entries : Entries)
  | placed (items : List Value)

/-- The part that a value writes; a time is one that says nothing. -/
def Part.ofValue? : Value → Option Part
  | .table _ entries => some (.named entries)
  | .list _ items => some (.placed items)
  | .moment => some (.named [])
  | _ => none

/-- The value of a part with a name and a place. -/
def Part.get? (part : Part) (name : String) (place : Nat) : Option Value :=
  match part with
  | .named entries => entries.get? name
  | .placed items => items[place]?

/-- Reads a value of a part, if it is there. -/
def Part.read (part : Part) (name : String) (place : Nat) (read : Value → Option α) (default : α) :
    Option α :=
  match part.get? name place with
  | some v => read v
  | none => some default

/-- A text. -/
def Value.text? : Value → Option String
  | .text s => some s
  | _ => none

/-- A number of at most 63 bits without a sign. -/
def Value.nat? : Value → Option Nat
  | .integer n => if 0 ≤ n then some n.toNat else none
  | _ => none

/-- A list of texts. -/
def Value.texts? : Value → Option (List String)
  | .list _ items => items.mapM text?
  | _ => none

/-- Whether a value holds nothing. -/
def Value.isEmpty : Value → Bool
  | .table _ [] => true
  | .list _ [] => true
  | _ => false

/-- A name out of several: a text, or a table with the name as its one key and nothing under it. -/
def Value.name? : Value → Option String
  | .text s => some s
  | .table _ [(name, v)] => if v.isEmpty then some name else none
  | _ => none

end Toml

open Toml

/-- The kind of store with a name. -/
def StoreKind.ofValue? (v : Value) : Option StoreKind :=
  v.name?.bind fun name => [memory, database].find? fun kind => kind.name == name

/-- The kind of ownership with a name. -/
def OwnershipKind.ofValue? (v : Value) : Option OwnershipKind :=
  v.name?.bind fun name => [stored, registry].find? fun kind => kind.name == name

/-- The settings of the server that a part writes. -/
def ServerSettings.ofPart? (part : Part) : Option ServerSettings := do
  let standard : ServerSettings := {}
  let listen ← part.read "listen" 0 Value.text? standard.listen
  let mount ← part.read "prefix" 1 Value.text? standard.mount
  let timeout ← part.read "request_timeout_secs" 2 Value.nat? standard.timeout
  let maxBody ← part.read "max_body_bytes" 3 Value.nat? standard.maxBody
  some { listen, mount, timeout, maxBody }

/-- A text that need not be there. -/
def Toml.Value.optional? (v : Value) : Option (Option String) := v.text?.map some

/-- The settings of signed responses that a part writes. -/
def SigningSettings.ofPart? (part : Part) : Option SigningSettings := do
  let standard : SigningSettings := {}
  let key ← part.read "private_key" 0 Value.optional? standard.key
  let defaultTtl ← part.read "default_ttl_secs" 1 Value.nat? standard.defaultTtl
  some { key, defaultTtl }

/-- The settings of the domain that a part writes. -/
def DomainSettings.ofPart? (part : Part) : Option DomainSettings := do
  let standard : DomainSettings := {}
  let name ← part.read "name" 0 Value.text? standard.name
  let version ← part.read "version" 1 Value.text? standard.version
  let chainId ← part.read "chain_id" 2 Value.nat? standard.chainId
  let contract ← part.read "verifying_contract" 3 Value.optional? standard.contract
  some { name, version, chainId, contract }

/-- The settings of the store that a part writes. -/
def StorageSettings.ofPart? (part : Part) : Option StorageSettings := do
  let kind ← part.read "backend" 0 StoreKind.ofValue? .memory
  let path ← part.read "path" 1 Value.optional? none
  some { kind, path }

/-- The settings of ownership that a part writes. -/
def OwnershipSettings.ofPart? (part : Part) : Option OwnershipSettings := do
  let kind ← part.read "mode" 0 OwnershipKind.ofValue? .stored
  let endpoint ← part.read "rpc_url" 1 Value.optional? none
  let registry ← part.read "registry" 2 Value.optional? none
  some { kind, endpoint, registry }

/-- The settings of the resolver that a part writes. -/
def ResolverSettings.ofPart? (part : Part) : Option ResolverSettings := do
  let reservedKeys ← part.read "reserved_text_keys" 0 Value.texts? []
  some { reservedKeys }

namespace Settings

/-- The keys of a document. -/
def parts : List String := ["server", "signing", "domain", "storage", "ownership", "resolver"]

/-- Reads a part of a document, if it is there. -/
def readPart (entries : Entries) (name : String) (read : Part → Option α) (default : α) : Option α :=
  match entries.get? name with
  | some v => (Part.ofValue? v).bind read
  | none => some default

/-- The settings that a table writes. -/
def ofEntries? (entries : Entries) : Option Settings :=
  if entries.all fun (key, _) => parts.contains key then do
    let server ← readPart entries "server" ServerSettings.ofPart? {}
    let signing ← readPart entries "signing" SigningSettings.ofPart? {}
    let domain ← readPart entries "domain" DomainSettings.ofPart? {}
    let storage ← readPart entries "storage" StorageSettings.ofPart? {}
    let ownership ← readPart entries "ownership" OwnershipSettings.ofPart? {}
    let resolver ← readPart entries "resolver" ResolverSettings.ofPart? {}
    some { server, signing, domain, storage, ownership, resolver }
  else none

/-- The settings that a document writes. -/
def parse? (text : String) : Option Settings := (Toml.parse? text).bind ofEntries?

/-- The line of a text. -/
def textLine (key value : String) : String := entryLine key (quoted value)

/-- The line of a number. -/
def numberLine (key : String) (value : Nat) : String := entryLine key (toString value)

/-- The line of a text that need not be there. -/
def optionalLine (key : String) (value : Option String) : String :=
  match value with
  | some text => textLine key text
  | none => ""

/-- The document of settings. -/
def document (s : Settings) : String :=
  Toml.document
    [headed "server"
      [textLine "listen" s.server.listen, textLine "prefix" s.server.mount,
       numberLine "request_timeout_secs" s.server.timeout,
       numberLine "max_body_bytes" s.server.maxBody],
     headed "signing"
      [optionalLine "private_key" s.signing.key,
       numberLine "default_ttl_secs" s.signing.defaultTtl],
     headed "domain"
      [textLine "name" s.domain.name, textLine "version" s.domain.version,
       numberLine "chain_id" s.domain.chainId,
       optionalLine "verifying_contract" s.domain.contract],
     headed "storage"
      [textLine "backend" s.storage.kind.name, optionalLine "path" s.storage.path],
     headed "ownership"
      [textLine "mode" s.ownership.kind.name, optionalLine "rpc_url" s.ownership.endpoint,
       optionalLine "registry" s.ownership.registry],
     headed "resolver"
      [entryLine "reserved_text_keys" (quotedList s.resolver.reservedKeys)]]

end Settings

end OffchainNames
