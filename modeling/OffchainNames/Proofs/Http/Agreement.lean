import OffchainNames.Proofs.Http.Path
import OffchainNames.Proofs.Http.Server
import OffchainNames.Proofs.Json.Objects
import OffchainNames.Store.Memory

/-!
# Fetched and submitted calls

A call without an authorization may be fetched by its path, with or without an extension, or submitted in
a body. The same two texts make the same call in both ways, or fail to make one with the same error
(`Http.Server.callOf_fetched`, `Http.Server.callOf_submitted`), so that the same operations follow and
the same answer (`Http.Server.answer_fetched_eq_submitted`).
-/

namespace OffchainNames

/-- The body of a submitted call is read like the value that it writes, whichever of the two members
comes first. -/
theorem CallText.parseFront_of_parse {bytes : Bytes} {sender data : String}
    (h : Json.parse bytes = .ok (.object (Json.textMembers [("sender", sender), ("data", data)])) ∨
      Json.parse bytes = .ok (.object (Json.textMembers [("data", data), ("sender", sender)]))) :
    CallText.parseFront bytes = .ok ⟨sender, data, none⟩ := by
  rcases h with senderFirst | dataFirst
  · rw [parseFront, Json.lexemes_of_parse (by simp) senderFirst]
    rfl
  · rw [parseFront, Json.lexemes_of_parse (by simp) dataFirst]
    rfl

namespace Http

/-- A text that may be a part of a path as it is. -/
structure IsPart (text : String) : Prop where
  filled : text.toList ≠ []
  unreserved : ∀ c ∈ text.toList, isUnreserved c = true

theorem IsPart.append {a b : String} (ha : IsPart a) (hb : ∀ c ∈ b.toList, isUnreserved c = true) :
    IsPart (a ++ b) := by
  constructor
  · intro none
    rw [String.toList_append, List.append_eq_nil_iff] at none
    exact ha.filled none.1
  · intro c member
    rw [String.toList_append, List.mem_append] at member
    rcases member with member | member
    · exact ha.unreserved c member
    · exact hb c member

namespace Server

/-- A request that fetches the call which two texts write, with or without an extension. -/
structure Fetches (s : Server) (r : Request) (sender data : String) : Prop where
  method : r.method = "GET"
  target : r.target = "/" ++ sender ++ "/" ++ data ∨ r.target = "/" ++ sender ++ "/" ++ data ++ ".json"
  short : s.declaresTooMuch r = false

/-- A request that submits the call which two texts write, in a body that the server takes in. -/
structure Submits (s : Server) (r : Request) (sender data : String) : Prop where
  method : r.method = "POST"
  target : r.target = "/"
  json : r.declaresJson = true
  sound : r.declaredLength? = none ∨ r.declaredLength? = some r.body.length
  fits : r.body.length ≤ s.maxBody
  object : Json.parse r.body = .ok (.object (Json.textMembers [("sender", sender), ("data", data)])) ∨
    Json.parse r.body = .ok (.object (Json.textMembers [("data", data), ("sender", sender)]))

section Agreement

variable {s : Server} {sender data : String} {r : Request}

/-- The two parts of a path are found as they are. -/
theorem endpoint?_of_parts (root : s.mount = "" ∨ s.mount = "/") (hsender : IsPart sender)
    (hdata : IsPart data) : s.endpoint? (pathOf ("/" ++ sender ++ "/" ++ data)) =
      some (.fetch, [sender.toList, data.toList]) := by
  have slash : isUnreserved '/' = false := by decide
  have chars : ("/" ++ sender ++ "/" ++ data).toList = '/' :: (sender.toList ++ '/' :: data.toList) := by
    simp
  -- Nothing in the target opens a query or a fragment, so that all of it is the path.
  have plain : ∀ c ∈ ("/" ++ sender ++ "/" ++ data).toList, c ≠ '?' ∧ c ≠ '#' := by
    have unreserved : ∀ c, isUnreserved c = true → c ≠ '?' ∧ c ≠ '#' := by
      rintro c h
      constructor
      · rintro rfl
        cases h
      · rintro rfl
        cases h
    intro c member
    simp only [chars, List.mem_cons, List.mem_append] at member
    rcases member with rfl | member | rfl | member
    · decide
    · exact unreserved c (hsender.unreserved c member)
    · decide
    · exact unreserved c (hdata.unreserved c member)
  rw [pathOf_of_plain plain, chars]
  exact endpoint?_parts root (not_mem_of_unreserved hsender.unreserved slash)
    (not_mem_of_unreserved hdata.unreserved slash) hsender.filled hdata.filled

theorem callOf_of_parts (root : s.mount = "" ∨ s.mount = "/") (method : r.method = "GET")
    (short : s.declaresTooMuch r = false) (hsender : IsPart sender) (hdata : IsPart data)
    (target : r.target = "/" ++ sender ++ "/" ++ data) :
    s.callOf r = (readParts sender data).mapError .ofError := by
  have percent : isUnreserved '%' = false := by decide
  have texts : [sender.toList, data.toList].mapM (fun text => Utf8.decode? (resolvePercent text)) =
      some [sender, data] := by
    simp [decode?_resolvePercent (not_mem_of_unreserved hsender.unreserved percent),
      decode?_resolvePercent (not_mem_of_unreserved hdata.unreserved percent)]
  simp [callOf, short, target, endpoint?_of_parts root hsender hdata, method, Endpoint.methods, readAt,
    texts]

/-- With or without the extension, what stands in the path for the second text is a part of it. -/
theorem Fetches.written (hdata : IsPart data) (bare : ¬ ".json".toList <:+ data.toList)
    (h : s.Fetches r sender data) : ∃ written, IsPart written ∧ withoutExtension written = data ∧
      r.target = "/" ++ sender ++ "/" ++ written := by
  rcases h.target with target | target
  · exact ⟨data, hdata, withoutExtension_of_not_suffix bare, target⟩
  · rw [String.append_assoc] at target
    have extended : IsPart (data ++ ".json") := hdata.append (List.all_eq_true.mp (by decide))
    exact ⟨data ++ ".json", extended, withoutExtension_append data, target⟩

/-- A fetched call is read from the two texts. -/
theorem callOf_fetched (root : s.mount = "" ∨ s.mount = "/") (hsender : IsPart sender)
    (hdata : IsPart data) (bare : ¬ ".json".toList <:+ data.toList) (h : s.Fetches r sender data) :
    s.callOf r = (CallText.read ⟨sender, data, none⟩).mapError .ofError := by
  obtain ⟨written, part, same, target⟩ := h.written hdata bare
  rw [callOf_of_parts root h.method h.short hsender part target, readParts, same, CallText.read]

/-- A submitted call is read from the two texts. -/
theorem callOf_submitted (root : s.mount = "" ∨ s.mount = "/") (h : s.Submits r sender data) :
    s.callOf r = (CallText.read ⟨sender, data, none⟩).mapError .ofError := by
  have place : s.endpoint? (pathOf r.target) = some (.submit, []) := by
    rw [h.target]
    exact endpoint?_root root
  have taken : r.takeBody s.maxBody = .ok r.body := by
    rcases h.sound with undeclared | declared
    · simp [Request.takeBody, undeclared, Nat.not_lt.mpr h.fits]
    · simp [Request.takeBody, declared, h.fits]
  rw [callOf_of_submit (declaresTooMuch_of_fits h.sound h.fits) place h.method]
  simp [Request.readCall, Request.readCallText, h.json, taken, CallText.parseFront_of_parse h.object]

/-- A call that is fetched and the same call that is submitted take the same course: the same operations,
in the store and everywhere else, and the same answer in the end, whether the two texts make a call or
not. -/
theorem answer_fetched_eq_submitted {fetched submitted : Request}
    (root : s.mount = "" ∨ s.mount = "/") (hsender : IsPart sender) (hdata : IsPart data)
    (bare : ¬ ".json".toList <:+ data.toList) (hfetched : s.Fetches fetched sender data)
    (hsubmitted : s.Submits submitted sender data) : s.answer fetched = s.answer submitted := by
  obtain ⟨written, part, -, target⟩ := hfetched.written hdata bare
  have fetchPlace : s.endpoint? (pathOf fetched.target) =
      some (.fetch, [sender.toList, written.toList]) := by
    rw [target]
    exact endpoint?_of_parts root hsender part
  have submitPlace : s.endpoint? (pathOf submitted.target) = some (.submit, []) := by
    rw [hsubmitted.target]
    exact endpoint?_root root
  have fetchAllowed : fetched.method ∈ Endpoint.fetch.methods ∧ fetched.method ≠ "HEAD" := by
    rw [hfetched.method]
    decide
  have submitAllowed : submitted.method ∈ Endpoint.submit.methods ∧ submitted.method ≠ "HEAD" := by
    rw [hsubmitted.method]
    decide
  rw [answer_of_served fetchPlace fetchAllowed.1 fetchAllowed.2,
    answer_of_served submitPlace submitAllowed.1 submitAllowed.2,
    callOf_fetched root hsender hdata bare hfetched, callOf_submitted root hsubmitted]

end Agreement

end Server

namespace RootServer

/-- A server without functions, apart from that for batches. -/
def server : Server := { gateway := ⟨.standard, []⟩, maxBody := 1024 }

/-- A request for a call of the contract 0. -/
def fetched : Request := ⟨"GET", "/0x0000000000000000000000000000000000000000/0x12345678.json", [], []⟩

/-- The body of a request that submits the call. -/
def body : String :=
  "\x7b \"data\" : \"0x12345678\", \"sender\": \"0x0000000000000000000000000000000000000000\" \x7d"

/-- A request that submits the call. -/
def submitted : Request :=
  ⟨"POST", "/", [("content-type", "application/json")], Bytes.ofString body⟩

theorem requests_told : (server.declaresTooMuch fetched = false ∧ submitted.declaresJson = true ∧
      submitted.declaredLength? = none ∧ submitted.body.length ≤ server.maxBody) ∧
    Json.lexemes submitted.body = .openObject :: Json.memberLexemes
      [("data", "0x12345678"), ("sender", "0x0000000000000000000000000000000000000000")] := by
  decide +kernel

end RootServer

/-- Fetching the call and submitting it are answered alike. -/
theorem RootServer.answered_alike : server.answer fetched = server.answer submitted := by
  obtain ⟨⟨short, json, undeclared, fits⟩, lexemes⟩ := requests_told
  have sender : IsPart "0x0000000000000000000000000000000000000000" :=
    ⟨by decide, List.all_eq_true.mp (by decide)⟩
  have data : IsPart "0x12345678" := ⟨by decide, List.all_eq_true.mp (by decide)⟩
  refine Server.answer_fetched_eq_submitted (.inl rfl) sender data (by decide)
    ⟨rfl, .inr (by decide), short⟩ ⟨rfl, rfl, json, .inl undeclared, fits, .inr ?_⟩
  rw [Json.parse, lexemes]
  rfl

end Http

end OffchainNames
