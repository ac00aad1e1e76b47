import OffchainNames.Namehash
import OffchainNames.Proofs.Digests

/-!
# What a node commits to

A node is made of the node of the rest of the name and of the first label, so that it is computed from the
last label to the first, while names are told apart from the first label on (`nodeOfLabels_told`). Names with
different numbers of labels come to the same node only if a block of the longer one has the digest zero, which
stands for the empty name. So a node tells its name, or something that was hashed for it collides
(`namehash_told`).
-/

namespace OffchainNames

theorem splitAtEach_eq_splitOn {α : Type} [DecidableEq α] (sep : α) (items : List α) :
    splitAtEach sep items = items.splitOn sep := by
  induction items with
  | nil => rfl
  | cons item rest ih =>
    rw [splitAtEach, List.splitOn, List.splitOnP_cons_eq_if_modifyHead, ← List.splitOn, ih]
    by_cases found : item = sep
    · simp [found]
    · simp only [found, if_false, beq_iff_eq]
      cases split : rest.splitOn sep with
      | nil => exact absurd split (List.splitOnP_ne_nil _ rest)
      | cons first parts => rfl

section Split

variable {α : Type} [DecidableEq α] {sep : α} {items : List α}

theorem splitAtEach_ne_nil (sep : α) (items : List α) : splitAtEach sep items ≠ [] := by
  rw [splitAtEach_eq_splitOn]
  exact List.splitOnP_ne_nil _ items

theorem intercalate_splitAtEach (sep : α) (items : List α) :
    [sep].intercalate (splitAtEach sep items) = items := by
  rw [splitAtEach_eq_splitOn, List.intercalate_splitOn]

theorem splitAtEach_of_not_mem (absent : sep ∉ items) : splitAtEach sep items = [items] := by
  rw [splitAtEach_eq_splitOn]
  refine List.splitOnP_eq_singleton fun item member => ?_
  rw [beq_eq_false_iff_ne]
  rintro rfl
  exact absent member

theorem splitAtEach_append (absent : sep ∉ items) (rest : List α) :
    splitAtEach sep (items ++ sep :: rest) = items :: splitAtEach sep rest := by
  have first := splitAtEach_of_not_mem absent
  rw [splitAtEach_eq_splitOn, List.splitOn] at first
  rw [splitAtEach_eq_splitOn, List.splitOn,
    List.splitOnP_append_cons (p := (· == sep)) items rest (beq_self_eq_true sep), first,
    splitAtEach_eq_splitOn]
  rfl

end Split

/-! ## Labels -/

/-- The labels of a name from the first to the last; the empty name has none. -/
def labelsOf (name : String) : List (List Char) :=
  if name = "" then [] else splitAtEach '.' name.toList

theorem namehash_eq (name : String) : namehash name = nodeOfLabels (labelsOf name) := by
  unfold namehash labelsOf
  split <;> rfl

example : namehash "eth" =
    0x93cdeb708b7545dc668eb9280176169d1c33cfd8ed6f04690a0bcc88a93fc4ae := by
  decide +kernel

/-- A name is told by its labels, empty ones among them. -/
theorem labelsOf_injective : Function.Injective labelsOf := by
  intro a b same
  unfold labelsOf at same
  split at same <;> split at same
  · rename_i ha hb
    rw [ha, hb]
  · exact absurd same.symm (splitAtEach_ne_nil _ _)
  · exact absurd same (splitAtEach_ne_nil _ _)
  · have joined := congrArg (List.intercalate ['.']) same
    rw [intercalate_splitAtEach, intercalate_splitAtEach] at joined
    exact String.toList_inj.mp joined

theorem labelsOf_of_dotless {label : String} (dotless : '.' ∉ label.toList) (nonempty : label ≠ "") :
    labelsOf label = [label.toList] := by
  rw [labelsOf, if_neg nonempty, splitAtEach_of_not_mem dotless]

/-- A label before a dot is the first label of a name. -/
theorem labelsOf_append {label rest : String} (dotless : '.' ∉ label.toList) (nonempty : rest ≠ "") :
    labelsOf (label ++ "." ++ rest) = label.toList :: labelsOf rest := by
  have named : label ++ "." ++ rest ≠ "" := by
    intro empty
    simpa using congrArg String.toList empty
  have characters : (label ++ "." ++ rest).toList = label.toList ++ '.' :: rest.toList := by
    simp
  rw [labelsOf, if_neg named, characters, splitAtEach_append dotless, labelsOf, if_neg nonempty]

theorem collision_append_iff {hashed others more more' : List Bytes}
    (lengths : hashed.length = others.length) : Collision (hashed ++ more) (others ++ more') ↔
      Collision hashed others ∨ Collision more more' := by
  simp only [Collision, List.zip_append lengths, List.mem_append, or_and_right, exists_or]

/-! ## Blocks -/

/-- The byte string that is hashed for a label under a node. -/
def labelBlock (parent : Word) (label : List Char) : Bytes :=
  Bytes.ofBits parent ++ Bytes.ofBits (keccak256 (Bytes.ofString (String.ofList label)))

/-- The byte strings that are hashed for a label under a node: the block and the label itself. -/
def labelHashed (parent : Word) (label : List Char) : List Bytes :=
  [labelBlock parent label, Bytes.ofString (String.ofList label)]

theorem childNode_eq (parent : Word) (label : List Char) :
    childNode parent label = keccak256 (labelBlock parent label) := rfl

@[simp] theorem length_labelHashed (parent : Word) (label : List Char) :
    (labelHashed parent label).length = 2 := by
  simp [labelHashed]

@[simp] theorem length_labelBlock (parent : Word) (label : List Char) :
    (labelBlock parent label).length = 64 := by
  simp [labelBlock]

/-- A node under another one tells that one and the label, unless something that was hashed collides. -/
theorem childNode_told {parent parent' : Word} {label label' : List Char}
    (same : childNode parent label = childNode parent' label') :
    (parent = parent' ∧ label = label') ∨
      Collision (labelHashed parent label) (labelHashed parent' label') := by
  refine (told_or_collision _ _).imp_left ?_
  intro told
  simp only [Told, labelHashed, List.zip_cons_cons, List.forall_mem_cons] at told
  obtain ⟨block, text, -⟩ := told
  obtain ⟨parents, labels⟩ := List.append_inj (block same) (by simp)
  have texts := text (Bytes.ofBits_inj (by decide) labels)
  exact ⟨Bytes.ofBits_inj (by decide) parents, String.ofList_inj.mp (Bytes.ofString_inj texts)⟩

/-- The blocks that are hashed for labels, that of the first label first. -/
def blocksOf : List (List Char) → List Bytes
  | [] => []
  | label :: rest => labelBlock (nodeOfLabels rest) label :: blocksOf rest

/-- The byte strings that are hashed for labels, those for the first label first. -/
def hashedOf : List (List Char) → List Bytes
  | [] => []
  | label :: rest => labelHashed (nodeOfLabels rest) label ++ hashedOf rest

theorem nodeOfLabels_cons (label : List Char) (rest : List (List Char)) :
    nodeOfLabels (label :: rest) = childNode (nodeOfLabels rest) label := rfl

theorem mem_blocksOf_cons (label : List Char) (rest : List (List Char)) :
    labelBlock (nodeOfLabels rest) label ∈ blocksOf (label :: rest) := by
  rw [blocksOf]
  exact List.mem_cons_self ..

/-- Some block that is hashed for one of two lists of labels has the digest zero. -/
def ZeroBlock (labels others : List (List Char)) : Prop :=
  ∃ block ∈ blocksOf labels ++ blocksOf others, block.length = 64 ∧ keccak256 block = 0

theorem ZeroBlock.cons {labels others : List (List Char)} (zero : ZeroBlock labels others)
    (label other : List Char) : ZeroBlock (label :: labels) (other :: others) := by
  obtain ⟨block, member, long, digest⟩ := zero
  refine ⟨block, ?_, long, digest⟩
  rw [blocksOf, blocksOf]
  rcases List.mem_append.mp member with member | member
  · exact List.mem_append_left _ (List.mem_cons_of_mem _ member)
  · exact List.mem_append_right _ (List.mem_cons_of_mem _ member)

/-- Labels are told by their node, unless byte strings that were hashed for them collide or a block has the
digest zero. -/
theorem nodeOfLabels_told {labels others : List (List Char)}
    (same : nodeOfLabels labels = nodeOfLabels others) :
    labels = others ∨ Collision (hashedOf labels) (hashedOf others) ∨ ZeroBlock labels others := by
  induction labels generalizing others with
  | nil =>
    cases others with
    | nil => exact .inl rfl
    | cons other others =>
      rw [nodeOfLabels_cons, childNode_eq] at same
      exact .inr (.inr ⟨_, List.mem_append_right _ (mem_blocksOf_cons ..), by simp, same.symm⟩)
  | cons label labels ih =>
    cases others with
    | nil =>
      rw [nodeOfLabels_cons, childNode_eq] at same
      exact .inr (.inr ⟨_, List.mem_append_left _ (mem_blocksOf_cons ..), by simp, same⟩)
    | cons other others =>
      -- The first labels are told apart in the last step that was hashed, the rest by the node under it.
      rw [nodeOfLabels_cons, nodeOfLabels_cons] at same
      rw [hashedOf, hashedOf, collision_append_iff (by simp)]
      obtain ⟨parents, rfl⟩ | collision := childNode_told same
      · rcases ih parents with rfl | collision | zero
        · exact .inl rfl
        · exact .inr (.inl (.inr collision))
        · exact .inr (.inr (zero.cons label label))
      · exact .inr (.inl (.inl collision))

/-- The node of a name is the digest of the node of the rest of the name and of the digest of the first
label, the empty name having the zero node. It tells the name, unless two different byte strings that were
hashed at one place have the same digest, or a block of 64 bytes has the digest zero. -/
theorem namehash_told :
    namehash "" = 0 ∧
    (∀ label : String, '.' ∉ label.toList → label ≠ "" → namehash label =
      keccak256 (Bytes.ofBits (0 : Word) ++ Bytes.ofBits (keccak256 (Bytes.ofString label)))) ∧
    (∀ label rest : String, '.' ∉ label.toList → rest ≠ "" → namehash (label ++ "." ++ rest) =
      keccak256 (Bytes.ofBits (namehash rest) ++ Bytes.ofBits (keccak256 (Bytes.ofString label)))) ∧
    ∀ a b : String, namehash a = namehash b →
      a = b ∨ Collision (hashedOf (labelsOf a)) (hashedOf (labelsOf b)) ∨
        ZeroBlock (labelsOf a) (labelsOf b) := by
  refine ⟨rfl, ?_, ?_, ?_⟩
  · intro label dotless nonempty
    rw [namehash_eq, labelsOf_of_dotless dotless nonempty, nodeOfLabels_cons, childNode_eq, labelBlock,
      String.ofList_toList]
    rfl
  · intro label rest dotless nonempty
    rw [namehash_eq, labelsOf_append dotless nonempty, nodeOfLabels_cons, ← namehash_eq, childNode_eq,
      labelBlock, String.ofList_toList]
  · intro a b same
    rw [namehash_eq, namehash_eq] at same
    exact (nodeOfLabels_told same).imp_left fun labels => labelsOf_injective labels

/-- A name under another one gets its node from the node of that one, and two names under it have the same
node only if something collides. How a name is put together makes no difference. -/
theorem subnames_told :
    namehash ("a" ++ "." ++ "eth") =
      keccak256 (Bytes.ofBits (namehash "eth") ++ Bytes.ofBits (keccak256 (Bytes.ofString "a"))) ∧
    namehash "eth" =
      keccak256 (Bytes.ofBits (0 : Word) ++ Bytes.ofBits (keccak256 (Bytes.ofString "eth"))) ∧
    (namehash "a.eth" = namehash "b.eth" →
      Collision (hashedOf (labelsOf "a.eth")) (hashedOf (labelsOf "b.eth")) ∨
        ZeroBlock (labelsOf "a.eth") (labelsOf "b.eth")) ∧
    namehash ("a" ++ ".eth") = namehash "a.eth" ∧
    ("a" ++ ".eth" = "a.eth" ∨ Collision (hashedOf (labelsOf ("a" ++ ".eth"))) (hashedOf (labelsOf "a.eth")) ∨
      ZeroBlock (labelsOf ("a" ++ ".eth")) (labelsOf "a.eth")) := by
  obtain ⟨-, one, more, told⟩ := namehash_told
  have joined : "a" ++ ".eth" = "a.eth" := by decide
  have same : namehash ("a" ++ ".eth") = namehash "a.eth" := congrArg namehash joined
  refine ⟨more "a" "eth" (by decide) (by decide), one "eth" (by decide) (by decide), ?_, same,
    told _ _ same⟩
  intro collides
  exact (told _ _ collides).resolve_left (by decide)

end OffchainNames
