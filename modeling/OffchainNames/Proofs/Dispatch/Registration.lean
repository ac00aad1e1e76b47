import Mathlib
import OffchainNames.Proofs.Dispatch.Table

/-!
# Registrations

A table keeps its entries and the interface of all that was registered side by side. Whatever is
registered and in whichever order, also with fragments in between that write no signature, the two tell the
same and each entry stands under the selector of its canonical text (`Table.Coherent`), and a selector has
the entry that was registered for it last (`Table.get?_registerAll`). As a canonical text has one selector,
at most one signature has that text, and the look-up by canonical text finds it in whichever order the
signatures are gone through (`Abi.Interface.Keyed.find?_of_perm`).
-/

namespace OffchainNames

/-- The selector of a canonical text. -/
def Selector.ofCanonical (canonical : String) : Selector :=
  Bytes.toBits 32 ((Keccak.digest (Bytes.ofString canonical)).take 4)

theorem Selector.ofCanonical_canonical (signature : Abi.Signature) :
    ofCanonical signature.canonical = signature.selector := rfl

namespace Abi.Interface

theorem get?_insert (i : Interface) (signature : Signature) (selector : Selector) :
    (i.insert signature).get? selector =
      if selector = signature.selector then some signature else i.get? selector := by
  unfold get? insert
  exact SortedMap.getElem?_insert ..

/-- Each signature of an interface stands under its own selector. -/
def Keyed (i : Interface) : Prop :=
  ∀ selector signature, i.get? selector = some signature → selector = signature.selector

variable {i : Interface}

theorem Keyed.mem_toList_iff (keyed : i.Keyed) {signature : Signature} :
    signature ∈ i.toList ↔ i.get? signature.selector = some signature := by
  constructor
  · intro member
    obtain ⟨⟨selector, _⟩, stored, rfl⟩ := List.mem_map.mp member
    have found := Std.ExtTreeMap.mem_toList_iff_getElem?_eq_some.mp stored
    rw [← keyed _ _ found]
    exact found
  · intro found
    exact List.mem_map.mpr ⟨_, Std.ExtTreeMap.mem_toList_iff_getElem?_eq_some.mpr found, rfl⟩

/-- What has a canonical text is what stands under the selector of the text. -/
theorem Keyed.mem_toList_of_canonical (keyed : i.Keyed) {signature : Signature} {canonical : String}
    (told : signature.canonical = canonical) :
    signature ∈ i.toList ↔ i.get? (.ofCanonical canonical) = some signature := by
  rw [keyed.mem_toList_iff, ← told, Selector.ofCanonical_canonical]

/-- In whichever order the signatures are gone through, the look-up by canonical text finds what stands
under the selector of the text, if it has that text. -/
theorem Keyed.find?_of_perm (keyed : i.Keyed) {signatures : List Signature}
    (perm : signatures.Perm i.toList) (canonical : String) :
    signatures.find? (fun signature => signature.canonical == canonical) =
      (i.get? (.ofCanonical canonical)).filter fun signature => signature.canonical == canonical := by
  cases found : signatures.find? fun signature => signature.canonical == canonical with
  | some signature =>
    have told := List.find?_some found
    have member := perm.mem_iff.mp (List.mem_of_find?_eq_some found)
    have stands := (keyed.mem_toList_of_canonical (beq_iff_eq.mp told)).mp member
    exact (Option.filter_eq_some_iff.mpr ⟨stands, told⟩).symm
  | none =>
    symm
    rw [Option.filter_eq_none_iff]
    intro signature stands told
    have member := (keyed.mem_toList_of_canonical (beq_iff_eq.mp told)).mpr stands
    exact List.find?_eq_none.mp found signature (perm.mem_iff.mpr member) told

end Abi.Interface

/-- A fragment and the function that is registered under the signature that it writes. -/
structure Registration where
  fragment : String
  handler : Handler

/-- The entry that a registration makes, if its fragment writes a signature. -/
def Registration.entry (r : Registration) : Except Error Entry :=
  (Abi.Signature.ofFragment r.fragment).map fun signature => ⟨signature, .function r.handler⟩

namespace Table

/-- What a registration answers, and the table after it: if it fails, the table before it. -/
def make (t : Table) (r : Registration) : Except Error Selector × Table :=
  match t.register r.fragment r.handler with
  | .ok (selector, t') => (.ok selector, t')
  | .error e => (.error e, t)

/-- The table after registrations, made one after another. -/
def registerAll (t : Table) (rs : List Registration) : Table :=
  rs.foldl (fun t r => (t.make r).2) t

/-- The entry that was registered for a selector last. -/
def latest? (rs : List Registration) (selector : Selector) : Option Entry :=
  ((rs.filterMap fun r => r.entry.toOption).filter fun entry =>
    entry.signature.selector = selector).getLast?

variable {t : Table} {r : Registration} {rs : List Registration}

theorem make_eq (t : Table) (r : Registration) : t.make r =
    match r.entry with
    | .ok entry => (.ok entry.signature.selector, t.insert entry)
    | .error e => (.error e, t) := by
  unfold make register Registration.entry
  cases Abi.Signature.ofFragment r.fragment with
  | error e => rfl
  | ok signature => rfl

theorem make_of_ok {entry : Entry} (h : r.entry = .ok entry) :
    t.make r = (.ok entry.signature.selector, t.insert entry) := by
  rw [make_eq, h]

theorem make_of_error {e : Error} (h : r.entry = .error e) : t.make r = (.error e, t) := by
  rw [make_eq, h]

/-- A registration answers with the selector of its signature, whatever was registered before it. -/
theorem fst_make (t : Table) (r : Registration) :
    (t.make r).1 = r.entry.map fun entry => entry.signature.selector := by
  cases h : r.entry with
  | error e => rw [make_of_error h]; rfl
  | ok entry => rw [make_of_ok h]; rfl

@[simp] theorem registerAll_nil (t : Table) : t.registerAll [] = t := rfl

@[simp] theorem registerAll_concat (t : Table) (rs : List Registration) (r : Registration) :
    t.registerAll (rs ++ [r]) = ((t.registerAll rs).make r).2 := by
  simp [registerAll]

@[simp] theorem latest?_nil (selector : Selector) : latest? [] selector = none := rfl

theorem latest?_concat_of_ok {entry : Entry} (h : r.entry = .ok entry) (selector : Selector) :
    latest? (rs ++ [r]) selector =
      if selector = entry.signature.selector then some entry else latest? rs selector := by
  by_cases same : entry.signature.selector = selector
  · simp [latest?, h, Except.toOption, same]
  · simp [latest?, h, Except.toOption, same, Ne.symm same]

theorem latest?_concat_of_error {e : Error} (h : r.entry = .error e) (selector : Selector) :
    latest? (rs ++ [r]) selector = latest? rs selector := by
  simp [latest?, h, Except.toOption]

/-- A selector has the entry that was registered for it last, and before that what the table began with. -/
theorem get?_registerAll (t : Table) (rs : List Registration) (selector : Selector) :
    (t.registerAll rs).get? selector = (latest? rs selector).or (t.get? selector) := by
  induction rs using List.reverseRecOn with
  | nil => simp
  | append_singleton rs r ih =>
    rw [registerAll_concat]
    cases h : r.entry with
    | error e => rw [make_of_error h, latest?_concat_of_error h, ih]
    | ok entry =>
      rw [make_of_ok h, latest?_concat_of_ok h, get?_insert, ih]
      split <;> rfl

/-- The interface of a table tells the signatures of its entries, and each entry stands under the selector
of its canonical text. -/
structure Coherent (t : Table) : Prop where
  get?_interface : ∀ selector, t.interface.get? selector = (t.get? selector).map Entry.signature
  keyed : ∀ selector entry, t.get? selector = some entry →
    selector = .ofCanonical entry.signature.canonical

namespace Coherent

theorem empty : Table.empty.Coherent where
  get?_interface selector := by
    rw [get?_empty]
    simp [Table.empty, Abi.Interface.get?]
  keyed selector entry found := by simp at found

theorem insert (coherent : t.Coherent) (entry : Entry) : (t.insert entry).Coherent where
  get?_interface selector := by
    have interface : (t.insert entry).interface = t.interface.insert entry.signature := rfl
    rw [interface, Abi.Interface.get?_insert, get?_insert, coherent.get?_interface]
    split <;> rfl
  keyed selector entry' found := by
    rw [get?_insert] at found
    split at found
    · rename_i same
      obtain rfl := Option.some.inj found
      rw [same, Selector.ofCanonical_canonical]
    · exact coherent.keyed selector entry' found

theorem standard : Table.standard.Coherent := empty.insert _

theorem make (coherent : t.Coherent) (r : Registration) : (t.make r).2.Coherent := by
  cases h : r.entry with
  | error e => rw [make_of_error h]; exact coherent
  | ok entry => rw [make_of_ok h]; exact coherent.insert entry

theorem registerAll (coherent : t.Coherent) (rs : List Registration) :
    (t.registerAll rs).Coherent := by
  induction rs using List.reverseRecOn with
  | nil => exact coherent
  | append_singleton rs r ih =>
    rw [registerAll_concat]
    exact ih.make r

theorem functions_eq (coherent : t.Coherent) :
    t.interface.functions = t.entries.map fun _ entry => entry.signature := by
  apply Std.ExtTreeMap.ext_getElem?
  intro selector
  rw [Std.ExtTreeMap.getElem?_map]
  exact coherent.get?_interface selector

theorem keyed_interface (coherent : t.Coherent) : t.interface.Keyed := by
  intro selector signature found
  rw [coherent.get?_interface] at found
  obtain ⟨entry, stored, rfl⟩ := Option.map_eq_some_iff.mp found
  exact (coherent.keyed selector entry stored).trans (Selector.ofCanonical_canonical _)

theorem keys_eq (coherent : t.Coherent) : t.interface.functions.keys = t.entries.keys := by
  rw [coherent.functions_eq, Std.ExtTreeMap.keys_map]

end Coherent

theorem snd_make_of_error {e : Error} (failed : (t.make r).1 = .error e) : (t.make r).2 = t := by
  cases h : r.entry with
  | error e' => rw [make_of_error h]
  | ok entry =>
    rw [make_of_ok h] at failed
    cases failed

/-- After registrations on a table that began empty or with the batch, its entries and its interface have
the same selectors and the same signatures, each under the first bytes of the digest of its canonical text.
A selector has what was registered for it last, a registration that fails leaves the table as it is, and the
look-up by canonical text does not depend on the order in which the interface is gone through. -/
theorem coherent_registrations {start : Table} (fresh : start = .empty ∨ start = .standard)
    (rs : List Registration) :
    let t := start.registerAll rs
    t.Coherent ∧ t.interface.functions.keys = t.entries.keys ∧
    (∀ selector, t.get? selector = (latest? rs selector).or (start.get? selector)) ∧
    (∀ r, (t.make r).1 = r.entry.map fun entry => entry.signature.selector) ∧
    (∀ r e, (t.make r).1 = .error e → (t.make r).2 = t) ∧
    ∀ canonical, t.interface.byCanonical? canonical =
        (t.interface.get? (.ofCanonical canonical)).filter
          (fun signature => signature.canonical == canonical) ∧
      ∀ signatures : List Abi.Signature, signatures.Perm t.interface.toList →
        signatures.find? (fun signature => signature.canonical == canonical) =
          t.interface.byCanonical? canonical := by
  have begun : start.Coherent := by
    rcases fresh with rfl | rfl
    · exact .empty
    · exact .standard
  have coherent := begun.registerAll rs
  refine ⟨coherent, coherent.keys_eq, get?_registerAll start rs, fst_make _, ?_, ?_⟩
  · intro r e failed
    exact snd_make_of_error failed
  · intro canonical
    have listed := coherent.keyed_interface.find?_of_perm (.refl _) canonical
    refine ⟨listed, ?_⟩
    intro signatures perm
    exact (coherent.keyed_interface.find?_of_perm perm canonical).trans listed.symm

/-- The signature of a batch is the one that its fragment writes. -/
theorem ofFragment_multicall : Abi.Signature.ofFragment
    "function multicall(bytes[] data) returns (bytes[] results)" = .ok .multicall := by
  cbv

namespace Collision

/-- A signature with a selector that another one has as well. -/
def burn : Abi.Signature := ⟨"burn", [⟨"", "uint256", []⟩], [], .nonpayable⟩

/-- The other signature with this selector. -/
def collate : Abi.Signature :=
  ⟨"collate_propagate_storage", [⟨"", "bytes16", []⟩], [], .nonpayable⟩

def silent : Handler := fun _ _ => .done (.reply {})

def refused : Registration := ⟨"function nope(", silent⟩

def registrations : List Registration :=
  [⟨"burn(uint256)", silent⟩, refused,
    ⟨"function multicall(bytes[] data) returns (bytes[] results)", silent⟩,
    ⟨"collate_propagate_storage(bytes16)", silent⟩]

theorem canonical_burn : burn.canonical = "burn(uint256)" := by cbv

theorem canonical_collate : collate.canonical = "collate_propagate_storage(bytes16)" := by cbv

theorem selectors_collide :
    burn.selector = 0x42966c68 ∧ collate.selector = 0x42966c68 := by
  refine ⟨Abi.Signature.selector_eq (by conv => lhs; cbv) ?_,
    Abi.Signature.selector_eq (by conv => lhs; cbv) ?_⟩ <;> decide +kernel

theorem entry_of_fragment {fragment : String} {signature : Abi.Signature}
    (written : Abi.Signature.ofFragment fragment = .ok signature) :
    (Registration.mk fragment silent).entry = .ok ⟨signature, .function silent⟩ := by
  rw [Registration.entry, written]
  rfl

theorem entry_refused : refused.entry =
    .error (.malformedInterface "\x60function nope(\x60: parser error:\nfunction nope(") := by
  rw [Registration.entry, refused]
  cbv

theorem latest?_registrations (selector : Selector) : latest? registrations selector =
    if selector = 0x42966c68 then some ⟨collate, .function silent⟩
    else if selector = 0xac9650d8 then some ⟨.multicall, .function silent⟩
    else none := by
  have first : (Registration.mk "burn(uint256)" silent).entry = .ok ⟨burn, .function silent⟩ :=
    entry_of_fragment (by cbv)
  have third : (Registration.mk "function multicall(bytes[] data) returns (bytes[] results)"
      silent).entry = .ok ⟨.multicall, .function silent⟩ := entry_of_fragment ofFragment_multicall
  have fourth : (Registration.mk "collate_propagate_storage(bytes16)" silent).entry =
      .ok ⟨collate, .function silent⟩ := entry_of_fragment (by cbv)
  have parts : registrations = [] ++ [⟨"burn(uint256)", silent⟩] ++ [refused] ++
      [⟨"function multicall(bytes[] data) returns (bytes[] results)", silent⟩] ++
      [⟨"collate_propagate_storage(bytes16)", silent⟩] := rfl
  rw [parts, latest?_concat_of_ok fourth, latest?_concat_of_ok third,
    latest?_concat_of_error entry_refused, latest?_concat_of_ok first, latest?_nil,
    selectors_collide.2, selectors_collide.1, Abi.Signature.selector_multicall]
  by_cases same : selector = 0x42966c68
  · rw [if_pos same, if_pos same]
  · rw [if_neg same, if_neg same, if_neg same]

end Collision

/-- The second of two signatures with one selector takes the place of the first, which is no longer found by
its canonical text; the batch gives way to a function with its signature. -/
theorem later_signature_found :
    (Table.standard = .empty ∨ Table.standard = .standard) ∧
    (standard.registerAll Collision.registrations).get? 0x42966c68 =
      some ⟨Collision.collate, .function Collision.silent⟩ ∧
    (standard.registerAll Collision.registrations).get? 0xac9650d8 =
      some ⟨.multicall, .function Collision.silent⟩ ∧
    ((standard.registerAll Collision.registrations).make Collision.refused).2 =
      standard.registerAll Collision.registrations ∧
    (standard.registerAll Collision.registrations).interface.byCanonical? "burn(uint256)" = none ∧
    (standard.registerAll Collision.registrations).interface.toList.reverse.find?
        (fun signature => signature.canonical == "collate_propagate_storage(bytes16)") =
      some Collision.collate := by
  have fresh : Table.standard = .empty ∨ Table.standard = .standard := .inr rfl
  obtain ⟨coherent, -, last, answers, kept, found⟩ :=
    coherent_registrations fresh Collision.registrations
  have second : (standard.registerAll Collision.registrations).get? 0x42966c68 =
      some ⟨Collision.collate, .function Collision.silent⟩ := by
    rw [last, Collision.latest?_registrations, if_pos rfl, Option.some_or]
  have batch : (standard.registerAll Collision.registrations).get? 0xac9650d8 =
      some ⟨.multicall, .function Collision.silent⟩ := by
    rw [last, Collision.latest?_registrations, if_neg (by decide), if_pos rfl, Option.some_or]
  have stored : (standard.registerAll Collision.registrations).interface.get? 0x42966c68 =
      some Collision.collate := by
    rw [coherent.get?_interface, second, Option.map_some]
  have burnt : Selector.ofCanonical "burn(uint256)" = 0x42966c68 := by
    rw [← Collision.canonical_burn, Selector.ofCanonical_canonical, Collision.selectors_collide.1]
  have collated : Selector.ofCanonical "collate_propagate_storage(bytes16)" = 0x42966c68 := by
    rw [← Collision.canonical_collate, Selector.ofCanonical_canonical, Collision.selectors_collide.2]
  refine ⟨fresh, second, batch, ?_, ?_, ?_⟩
  · have failed := answers Collision.refused
    rw [Collision.entry_refused] at failed
    exact kept _ _ failed
  · have other : ("collate_propagate_storage(bytes16)" == "burn(uint256)") = false := by decide
    rw [(found "burn(uint256)").1, burnt, stored, Option.filter_some, Collision.canonical_collate, other]
    rfl
  · rw [(found "collate_propagate_storage(bytes16)").2 _ (List.reverse_perm _),
      (found "collate_propagate_storage(bytes16)").1, collated, stored, Option.filter_some,
      Collision.canonical_collate, if_pos (beq_self_eq_true _)]

end Table

end OffchainNames
