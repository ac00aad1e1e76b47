import OffchainNames.Proofs.Store.Backend

/-!
# Texts stay

A change that does not set a text leaves it as it is: that of the same node under another key, that of
another node under the same key, and those of a node that is registered, given away or marked. This is so in
memory, in tables with any rows, and so in either backend (`Backend.text_apply`). What putting a text or an
address does to the entries of a record is computed here once.
-/

namespace OffchainNames

/-- A change sets the text of a node under a key. -/
def Change.SetsText (c : Change) (n : Word) (key : String) : Prop := ∃ value, c = .setText n key value

namespace Record

variable (r : Record) (key value : String) (coin : Word) (raw : Bytes)

theorem getElem?_putText (asked : String) : (r.putText key value).texts[asked]? =
    if key = asked then (if value = "" then none else some value) else r.texts[asked]? := by
  rw [putText, apply_ite Record.texts]
  exact SortedMap.getElem?_put ..

@[simp] theorem addresses_putText : (r.putText key value).addresses = r.addresses := by
  unfold putText
  split <;> rfl

@[simp] theorem contenthash_putText : (r.putText key value).contenthash = r.contenthash := by
  unfold putText
  split <;> rfl

@[simp] theorem ttl_putText : (r.putText key value).ttl = r.ttl := by
  unfold putText
  split <;> rfl

theorem getElem?_putAddress (asked : Word) : (r.putAddress coin raw).addresses[asked]? =
    if coin = asked then (if raw = [] then none else some raw) else r.addresses[asked]? := by
  rw [putAddress, apply_ite Record.addresses]
  exact SortedMap.getElem?_put ..

@[simp] theorem texts_putAddress : (r.putAddress coin raw).texts = r.texts := by
  unfold putAddress
  split <;> rfl

@[simp] theorem contenthash_putAddress : (r.putAddress coin raw).contenthash = r.contenthash := by
  unfold putAddress
  split <;> rfl

@[simp] theorem ttl_putAddress : (r.putAddress coin raw).ttl = r.ttl := by
  unfold putAddress
  split <;> rfl

end Record

/-- A change keeps the texts of a record that it does not set. -/
theorem Change.getElem?_texts_effect {c : Change} {key : String} (other : ¬ c.SetsText c.node key)
    (r : Record) : (c.effect r).texts[key]? = r.texts[key]? := by
  cases c with
  | register | transfer | setContenthash | setMarker => rfl
  | setAddress node coin raw => rw [effect, Record.texts_putAddress]
  | setText node set value =>
    rw [effect, Record.getElem?_putText, if_neg]
    intro same
    exact other ⟨value, by rw [same]; rfl⟩

namespace Holding

variable (held : Holding)

theorem getElem?_putText (name value asked : String) :
    (held.putText name value).texts[Cell.typed asked]? =
      if name = asked then (if value = "" then none else some (.typed value))
      else held.texts[Cell.typed asked]? := by
  rw [putText, apply_ite Holding.texts, SortedMap.getElem?_put]
  exact ite_congr (Cell.typed.injEq ..) (fun _ => rfl) fun _ => rfl

theorem texts_putAddress (coin : Word) (value : Bytes) :
    (held.putAddress coin value).texts = held.texts := by
  unfold putAddress
  split <;> rfl

end Holding

/-- A change keeps the texts under a node that it does not set. -/
theorem Change.getElem?_texts_holdingEffect {c : Change} {key : String}
    (other : ¬ c.SetsText c.node key) (held : Holding) :
    (c.holdingEffect held).texts[Cell.typed key]? = held.texts[Cell.typed key]? := by
  cases c with
  | register | transfer | setContenthash | setMarker => rfl
  | setAddress node coin raw => rw [holdingEffect, Holding.texts_putAddress]
  | setText node set value =>
    rw [holdingEffect, Holding.getElem?_putText, if_neg]
    intro same
    exact other ⟨value, by rw [same]; rfl⟩

variable {c : Change} {n : Word} {key : String}

theorem Memory.text_apply {m : Memory} (other : ¬ c.SetsText n key) :
    Store.text (Store.apply c m).2 n key = Store.text m n key := by
  rw [apply_eq]
  cases m.refusal? c with
  | some cause => rfl
  | none =>
    rw [text_eq, text_eq, getD, getElem?_put]
    by_cases same : n = c.node
    · subst same
      rw [if_pos rfl, Option.getD_some, Change.getElem?_texts_effect other]
    · rw [if_neg same, getD]

theorem Tables.text_apply {t : Tables} (other : ¬ c.SetsText n key) :
    Store.text (Store.apply c t).2 n key = Store.text t n key := by
  rcases apply_refused_or_made c t with ⟨cause, refused⟩ | made
  · rw [refused]
  · rw [made, text_eq, text_eq, getD_put]
    by_cases same : n = c.node
    · subst same
      rw [if_pos rfl, Change.getElem?_texts_holdingEffect other]
    · rw [if_neg same]

/-- In either backend a change keeps every text that it does not set. -/
theorem Backend.text_apply {b : Backend} (other : ¬ c.SetsText n key) :
    Store.text (Store.apply c b).2 n key = Store.text b n key := by
  cases b with
  | memory m => exact Memory.text_apply other
  | tables t => exact Tables.text_apply other

end OffchainNames
