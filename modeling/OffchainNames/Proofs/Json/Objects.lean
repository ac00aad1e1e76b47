import OffchainNames.Json.Value
import OffchainNames.Proofs.Abi.Decoding

/-!
# Objects with texts

Whatever the spaces and the escapes, an object whose members are texts is read from one list of lexemes
only (`Json.lexemes_of_parse`): who reads the lexemes in another way than as a value still gets the same
members.
-/

namespace OffchainNames

namespace Json

/-- The lexemes of the members of an object with texts, and of its end. -/
def memberLexemes : List (String × String) → List Lexeme
  | [] => [.closeObject]
  | [(key, s)] => [.string (some key), .colon, .string (some s), .closeObject]
  | (key, s) :: rest => .string (some key) :: .colon :: .string (some s) :: .comma :: memberLexemes rest

/-- The members of an object with texts. -/
def textMembers (members : List (String × String)) : List (String × Value) :=
  members.map fun (key, s) => (key, .string s)

section Reading

variable {bound depth : Nat} {ls rest : List Lexeme}

/-- What the lexemes of a string and of an object are. -/
theorem readValue_told {v : Value} (h : readValue bound depth ls = .ok (v, rest)) :
    match v with
    | .string s => ls = .string (some s) :: rest
    | .object members => ∃ inner, ls = .openObject :: inner ∧
        (members = [] ∨ ∃ bound depth, readMembers bound depth inner = .ok (members, rest))
    | _ => True := by
  cases bound with
  | zero => cases h
  | succ bound =>
    rw [readValue.eq_def] at h
    simp only at h
    -- The first lexeme: null, a truth value, a number, a string, a list, an object, any other one.
    split at h
    · cases h
      trivial
    · cases h
      trivial
    · split at h <;> cases h
      trivial
    · cases h
      rfl
    · split at h
      · cases h
      · split at h
        · cases h
          trivial
        · obtain ⟨_, _, found⟩ := Except.map_eq_ok_iff.mp h
          cases found
          trivial
    · split at h
      · cases h
      · split at h
        · cases h
          exact ⟨_, rfl, .inl rfl⟩
        · obtain ⟨_, read, found⟩ := Except.map_eq_ok_iff.mp h
          cases found
          exact ⟨_, rfl, .inr ⟨_, _, read⟩⟩
    · cases h

theorem readMembers_cases {members : List (String × Value)}
    (h : readMembers bound depth ls = .ok (members, rest)) :
    ∃ key v inner after bound', ls = .string (some key) :: .colon :: inner ∧
      readValue bound' depth inner = .ok (v, after) ∧
      (after = .closeObject :: rest ∧ members = [(key, v)] ∨
        ∃ more later, after = .comma :: later ∧
          readMembers bound' depth later = .ok (more, rest) ∧ members = (key, v) :: more) := by
  cases bound with
  | zero => cases h
  | succ bound =>
    rw [readMembers.eq_def] at h
    simp only at h
    split at h
    · split at h
      · cases h
      · rename_i v later read
        obtain ⟨⟨more, _⟩, reads, found⟩ := Except.map_eq_ok_iff.mp h
        cases found
        exact ⟨_, v, _, _, bound, rfl, read, .inr ⟨more, later, rfl, reads, rfl⟩⟩
      · rename_i v after read
        cases h
        exact ⟨_, v, _, _, bound, rfl, read, .inl ⟨rfl, rfl⟩⟩
      · cases h
    · cases h

/-- Behind the start of an object, or a comma, at least one member is read. -/
theorem readMembers_ne_nil : readMembers bound depth ls ≠ .ok ([], rest) := by
  intro h
  obtain ⟨_, _, _, _, _, -, -, last | more⟩ := readMembers_cases h
  · cases last.2
  · obtain ⟨_, _, -, -, none⟩ := more
    cases none

/-- Members that are texts are read from their lexemes only. -/
theorem readMembers_told {members : List (String × String)}
    (h : readMembers bound depth ls = .ok (textMembers members, rest)) :
    ls = memberLexemes members ++ rest := by
  induction members generalizing bound ls with
  | nil => exact absurd h readMembers_ne_nil
  | cons member members ih =>
    obtain ⟨key, s⟩ := member
    obtain ⟨_, v, inner, after, bound', rfl, read, last | ⟨more, later, rfl, reads, found⟩⟩ :=
      readMembers_cases h
    · obtain ⟨rfl, found⟩ := last
      injection found with first none
      cases first
      cases members with
      | nil => rw [readValue_told read, memberLexemes]; rfl
      | cons _ _ => cases none
    · injection found with first tail
      cases first
      subst tail
      have lexemes := ih reads
      cases members with
      | nil => exact absurd reads readMembers_ne_nil
      | cons next members =>
        rw [readValue_told read, memberLexemes, lexemes]
        · rfl
        · intro none
          cases none

/-- An object with texts is read from the lexemes of its members only. -/
theorem lexemes_of_parse {bytes : Bytes} {members : List (String × String)} (filled : members ≠ [])
    (h : parse bytes = .ok (.object (textMembers members))) :
    lexemes bytes = .openObject :: memberLexemes members := by
  rw [parse] at h
  split at h
  · cases h
  · rename_i v read
    cases h
    obtain ⟨inner, first, none | ⟨_, _, reads⟩⟩ := readValue_told read
    · exact absurd (List.map_eq_nil_iff.mp none) filled
    · rw [first, readMembers_told reads, List.append_nil]
  · cases h

end Reading

end Json

end OffchainNames
