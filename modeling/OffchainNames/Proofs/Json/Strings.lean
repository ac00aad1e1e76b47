import OffchainNames.Json.Value
import OffchainNames.Proofs.Bytes.Hex
import OffchainNames.Proofs.Text.Utf8

/-!
# Written strings are read back

A character is written in a string in one of three ways, and each of them is read as pieces that spell
the character again (`Json.Spells`). So a text is read back from the string that writes it
(`Json.scanString_escaped`), and an object with one text as its only member from its compact text
(`Json.parse_text_singleton`).
-/

namespace OffchainNames

namespace Json

/-- A byte that stands for itself in a string. -/
def isPlain (b : UInt8) : Bool := b != 34 && b != 92 && 32 ≤ b

@[simp] theorem pieces_quote (rest : Bytes) : pieces (34 :: rest) = some ([], rest) := by
  rw [pieces.eq_def]
  rfl

theorem pieces_plain {b : UInt8} (plain : isPlain b = true) (rest : Bytes) :
    pieces (b :: rest) = (pieces rest).map fun (ps, rest) => (.byte b :: ps, rest) := by
  simp only [isPlain, Bool.and_eq_true, bne_iff_ne, decide_eq_true_eq, and_assoc] at plain
  obtain ⟨quote, mark, low⟩ := plain
  rw [pieces.eq_def]
  simp only [quote, mark, UInt8.not_lt.mpr low, if_false]

theorem pieces_escaped {c b : UInt8} (notUnit : c ≠ 117) (escape : escaped? c = some b) (rest : Bytes) :
    pieces (92 :: c :: rest) = (pieces rest).map fun (ps, rest) => (.byte b :: ps, rest) := by
  rw [pieces.eq_def]
  simp [notUnit, escape]

theorem pieces_unit {a b c d : UInt8} {n : Nat} (digits : unit? a b c d = some n) (rest : Bytes) :
    pieces (92 :: 117 :: a :: b :: c :: d :: rest) =
      (pieces rest).map fun (ps, rest) => (.unit n :: ps, rest) := by
  rw [pieces.eq_def]
  simp [digits]

theorem spell_unit {n : Nat} (low : n < 0xD800) (ps : List Piece) : spell (.unit n :: ps) =
    (spell ps).map (String.utf8EncodeChar (Char.ofNat n) ++ ·) := by
  have notHigh : isHigh n = false := by
    simp only [isHigh, Bool.and_eq_false_iff, decide_eq_false_iff_not]
    omega
  have notLow : isLow n = false := by
    simp only [isLow, Bool.and_eq_false_iff, decide_eq_false_iff_not]
    omega
  rw [spell.eq_def]
  simp [notHigh, notLow]

/-- The pieces of a character as it is written in a string: they are read from its bytes, and they spell
it. -/
structure Spells (c : Char) (written : List Piece) : Prop where
  read : ∀ rest, pieces ((escapeChar c).flatMap String.utf8EncodeChar ++ rest) =
    (pieces rest).map fun (ps, rest) => (written ++ ps, rest)
  spell : ∀ ps, spell (written ++ ps) = (spell ps).map (String.utf8EncodeChar c ++ ·)

theorem spells_plain {c : Char} (alone : escapeChar c = [c])
    (plain : ∀ b ∈ String.utf8EncodeChar c, isPlain b = true) :
    Spells c ((String.utf8EncodeChar c).map .byte) := by
  constructor
  · intro rest
    rw [alone, List.flatMap_singleton]
    generalize String.utf8EncodeChar c = bytes at plain
    induction bytes with
    | nil => simp
    | cons b bytes ih =>
      rw [List.cons_append, pieces_plain (plain b (List.mem_cons_self ..)),
        ih fun b member => plain b (List.mem_cons_of_mem _ member)]
      simp [Function.comp_def]
  · intro ps
    generalize String.utf8EncodeChar c = bytes
    induction bytes with
    | nil => simp
    | cons b bytes ih =>
      rw [List.map_cons, List.cons_append, spell, ih]
      simp [Function.comp_def]

theorem isPlain_of_high {b : UInt8} (high : 128 ≤ b.toNat) : isPlain b = true := by
  have quote : b ≠ 34 := by
    rintro rfl
    exact absurd high (by decide)
  have mark : b ≠ 92 := by
    rintro rfl
    exact absurd high (by decide)
  simp only [isPlain, Bool.and_eq_true, bne_iff_ne, decide_eq_true_eq, UInt8.le_iff_toNat_le]
  refine ⟨⟨quote, mark⟩, Nat.le_trans (by decide) high⟩

theorem isPlain_of_mem {c : Char} (low : 32 ≤ c.toNat) (quote : c ≠ '"') (mark : c ≠ '\\') :
    ∀ b ∈ String.utf8EncodeChar c, isPlain b = true := by
  intro b member
  rcases Nat.lt_or_ge c.toNat 128 with one | more
  · have ascii := Utf8.forall_ascii (P := fun c => c.toNat < 32 ∨ c = '"' ∨ c = '\\' ∨
      (String.utf8EncodeChar c).all isPlain = true) (by decide) one
    rcases ascii with control | same | same | plain
    · omega
    · exact absurd same quote
    · exact absurd same mark
    · exact List.all_eq_true.mp plain b member
  · exact isPlain_of_high (Utf8.high_of_mem_utf8EncodeChar more member)

/-- The characters that are written as a backslash and another character. -/
def shortEscapes : List (Char × UInt8) :=
  [('"', 34), ('\\', 92), (Char.ofNat 8, 98), ('\t', 116), ('\n', 110), (Char.ofNat 12, 102), ('\r', 114)]

theorem spells_short {c : Char} {e : UInt8} (short : (c, e) ∈ shortEscapes) :
    Spells c [.byte (UInt8.ofNat c.toNat)] := by
  have all : ∀ p ∈ shortEscapes, (escapeChar p.1).flatMap String.utf8EncodeChar = [92, p.2] ∧
      p.2 ≠ 117 ∧ escaped? p.2 = some (UInt8.ofNat p.1.toNat) ∧
      String.utf8EncodeChar p.1 = [UInt8.ofNat p.1.toNat] := by
    decide
  obtain ⟨written, notUnit, escape, bytes⟩ := all (c, e) short
  constructor
  · intro rest
    rw [written]
    exact pieces_escaped notUnit escape rest
  · intro ps
    rw [bytes]
    rfl

theorem spells_unit {c : Char} (control : c.toNat < 32) (written : escapeChar c =
    ['\\', 'u', '0', '0', Hex.digit (c.toNat / 16), Hex.digit (c.toNat % 16)]) :
    Spells c [.unit c.toNat] := by
  have value : ∀ n < 16, hexadecimal? (Hex.digitByte n) = some n := by decide
  constructor
  · intro rest
    have bytes : (escapeChar c).flatMap String.utf8EncodeChar =
        [92, 117, 48, 48, Hex.digitByte (c.toNat / 16), Hex.digitByte (c.toNat % 16)] := by
      have start : ['\\', 'u', '0', '0'].flatMap String.utf8EncodeChar = [92, 117, 48, 48] := by decide
      rw [written]
      have parts : ['\\', 'u', '0', '0', Hex.digit (c.toNat / 16), Hex.digit (c.toNat % 16)] =
          ['\\', 'u', '0', '0'] ++ [Hex.digit (c.toNat / 16), Hex.digit (c.toNat % 16)] := rfl
      rw [parts, List.flatMap_append, start, List.flatMap_cons, List.flatMap_singleton,
        Hex.utf8EncodeChar_digit (by omega), Hex.utf8EncodeChar_digit (by omega)]
      rfl
    have digits : unit? 48 48 (Hex.digitByte (c.toNat / 16)) (Hex.digitByte (c.toNat % 16)) =
        some c.toNat := by
      have zero : hexadecimal? 48 = some 0 := by decide
      simp only [unit?, zero, value (c.toNat / 16) (by omega), value (c.toNat % 16) (by omega)]
      congr 1
      omega
    rw [bytes]
    exact pieces_unit digits rest
  · intro ps
    rw [List.singleton_append, spell_unit (by omega), Char.ofNat_toNat]

/-- Each character is written in a string in one of three ways. -/
theorem spells_escapeChar (c : Char) : ∃ written, Spells c written := by
  by_cases short : ∃ e, (c, e) ∈ shortEscapes
  · obtain ⟨e, short⟩ := short
    exact ⟨_, spells_short short⟩
  have named : ∀ p ∈ shortEscapes, c ≠ p.1 := by
    rintro ⟨c', e⟩ member rfl
    exact short ⟨e, member⟩
  have number : ∀ n ∈ [8, 9, 10, 12, 13], c.toNat ≠ n := by
    have all : ∀ n ∈ [8, 9, 10, 12, 13], ∃ p ∈ shortEscapes, p.1 = Char.ofNat n := by decide
    rintro n member rfl
    obtain ⟨p, place, same⟩ := all _ member
    exact named p place (by rw [same, Char.ofNat_toNat])
  simp only [shortEscapes, List.forall_mem_cons] at named number
  obtain ⟨quote, mark, -⟩ := named
  obtain ⟨backspace, tab, line, feed, back, -⟩ := number
  have rest : escapeChar c =
      if c.toNat < 32 then
        ['\\', 'u', '0', '0', Hex.digit (c.toNat / 16), Hex.digit (c.toNat % 16)]
      else [c] := by
    rw [escapeChar, if_neg quote, if_neg mark, if_neg backspace, if_neg tab, if_neg line,
      if_neg feed, if_neg back]
  by_cases control : c.toNat < 32
  · rw [if_pos control] at rest
    exact ⟨_, spells_unit control rest⟩
  · rw [if_neg control] at rest
    exact ⟨_, spells_plain rest (isPlain_of_mem (Nat.not_lt.mp control) quote mark)⟩

/-- A text is read back from the way in which it is written in a string. -/
theorem scanString_escaped (cs : List Char) (rest : Bytes) :
    scanString ((cs.flatMap escapeChar).flatMap String.utf8EncodeChar ++ 34 :: rest) =
      some (some (String.ofList cs), rest) := by
  have read : ∃ written, pieces ((cs.flatMap escapeChar).flatMap String.utf8EncodeChar ++ 34 :: rest) =
      some (written, rest) ∧ spell written = some (cs.flatMap String.utf8EncodeChar) := by
    -- On the characters; what follows them always starts with the closing quote.
    induction cs with
    | nil => exact ⟨[], pieces_quote rest, rfl⟩
    | cons c cs ih =>
      obtain ⟨later, read, spelt⟩ := ih
      obtain ⟨here, spells⟩ := spells_escapeChar c
      refine ⟨here ++ later, ?_, ?_⟩
      · rw [List.flatMap_cons, List.flatMap_append, List.append_assoc, spells.read, read]
        rfl
      · rw [spells.spell, spelt]
        rfl
  obtain ⟨written, read, spelt⟩ := read
  have bytes : cs.flatMap String.utf8EncodeChar = Bytes.ofString (String.ofList cs) := by
    rw [Bytes.ofString, String.toList_ofList]
  simp only [scanString, read, Option.map_some, spelt, bytes, Option.bind_some, Utf8.decode?_ofString]

theorem lexemesUpTo_cons {b : UInt8} {rest after : Bytes} {lexeme : Lexeme}
    (visible : isSpace b = false) (read : scan b rest = some (lexeme, after)) (bound : Nat) :
    lexemesUpTo (bound + 1) (b :: rest) = lexeme :: lexemesUpTo bound after := by
  rw [lexemesUpTo, List.dropWhile_cons_of_neg (by simp [visible])]
  simp only [read]

theorem ofString_quoted (s : String) : Bytes.ofString (quoted s) =
    34 :: ((s.toList.flatMap escapeChar).flatMap String.utf8EncodeChar ++ [34]) := by
  have quote : String.utf8EncodeChar '"' = [34] := by decide
  simp [quoted, Bytes.ofString, quote]

theorem lexemesUpTo_quoted (bound : Nat) (s : String) (rest : Bytes) :
    lexemesUpTo (bound + 1) (Bytes.ofString (quoted s) ++ rest) =
      .string (some s) :: lexemesUpTo bound rest := by
  rw [ofString_quoted, List.cons_append, List.append_assoc]
  refine lexemesUpTo_cons (by decide) ?_ bound
  simp [scan, scanString_escaped]

/-- The object with one text is read back from the way in which it is written. -/
theorem parse_text_singleton (key s : String) :
    parse (Bytes.ofString (Value.object [(key, .string s)]).text) = .ok (.object [(key, .string s)]) := by
  have bytes : Bytes.ofString (Value.object [(key, .string s)]).text =
      123 :: (Bytes.ofString (quoted key) ++ 58 :: (Bytes.ofString (quoted s) ++ [125])) := by
    have opening : Bytes.ofString "\x7b" = [123] := by decide
    have closing : Bytes.ofString "\x7d" = [125] := by decide
    have colon : Bytes.ofString ":" = [58] := by decide
    have text : (Value.object [(key, .string s)]).text =
        "\x7b" ++ (quoted key ++ ":" ++ quoted s) ++ "\x7d" := rfl
    simp [text, Bytes.ofString_append, opening, closing, colon]
  have long : ∃ bound, (Bytes.ofString (Value.object [(key, .string s)]).text).length = bound + 5 := by
    refine ⟨_ - 5, (Nat.sub_add_cancel ?_).symm⟩
    rw [bytes, ofString_quoted, ofString_quoted]
    simp only [List.length_cons, List.length_append]
    omega
  obtain ⟨bound, long⟩ := long
  have read : lexemes (Bytes.ofString (Value.object [(key, .string s)]).text) =
      [.openObject, .string (some key), .colon, .string (some s), .closeObject] := by
    rw [lexemes, long, bytes, lexemesUpTo_cons rfl rfl, lexemesUpTo_quoted, lexemesUpTo_cons rfl rfl,
      lexemesUpTo_quoted, lexemesUpTo_cons rfl rfl]
    cases bound <;> rfl
  rw [parse, read]
  rfl

end Json

end OffchainNames
