import AlignedLayer.Library.MerkleTree

/-!
# Merkle trees with unordered siblings

When the message of a pair does not depend on the order of the two nodes, a
path needs no sides, and climbing it from a position of index zero is a plain
fold.  Every node of a tree then has a path to the root, and the messages on
this path are messages of the tree.
-/

namespace AlignedLayer.MerkleTree

variable {Node Message : Type} {hash : Message → Node} {pair : Node → Node → Message}

/-- The node that a path without sides leads to. -/
def fold (hash : Message → Node) (pair : Node → Node → Message) (path : List Node)
    (node : Node) : Node :=
  climb (parentOf hash pair) path 0 node

/-- The messages that are hashed on the way. -/
def foldMessages (hash : Message → Node) (pair : Node → Node → Message) (path : List Node)
    (node : Node) : List Message :=
  climbMessages hash pair path 0 node

@[simp] theorem fold_nil (node : Node) : fold hash pair [] node = node := rfl

@[simp] theorem fold_cons (sibling : Node) (path : List Node) (node : Node) :
    fold hash pair (sibling :: path) node = fold hash pair path (hash (pair node sibling)) := rfl

@[simp] theorem foldMessages_nil (node : Node) : foldMessages hash pair [] node = [] := rfl

@[simp] theorem foldMessages_cons (sibling : Node) (path : List Node) (node : Node) :
    foldMessages hash pair (sibling :: path) node =
      pair node sibling :: foldMessages hash pair path (hash (pair node sibling)) := rfl

theorem fold_append (before after : List Node) (node : Node) :
    fold hash pair (before ++ after) node = fold hash pair after (fold hash pair before node) := by
  induction before generalizing node with
  | nil => rfl
  | cons sibling before induction => exact induction _

theorem foldMessages_append (before after : List Node) (node : Node) :
    foldMessages hash pair (before ++ after) node =
      foldMessages hash pair before node ++
        foldMessages hash pair after (fold hash pair before node) := by
  induction before generalizing node with
  | nil => rfl
  | cons sibling before induction =>
      rw [List.cons_append, foldMessages_cons, foldMessages_cons, List.cons_append, induction]
      rfl

theorem fold_eq_foldl (path : List Node) (node : Node) :
    fold hash pair path node = path.foldl (parentOf hash pair) node := by
  induction path generalizing node with
  | nil => rfl
  | cons sibling path induction => exact induction _

/-- The sides of a path do not matter. -/
theorem climb_eq_fold (symm : ∀ left right, pair left right = pair right left)
    (path : List Node) (index : Nat) (node : Node) :
    climb (parentOf hash pair) path index node = fold hash pair path node := by
  induction path generalizing index node with
  | nil => rfl
  | cons sibling path induction =>
      have either : (if index % 2 = 0 then pair node sibling else pair sibling node) =
          pair node sibling := by
        split
        · rfl
        · exact symm sibling node
      rw [climb_cons, either, fold_cons]
      exact induction _ _

/-- A message on the way is the last one of a first part of the path. -/
theorem exists_prefix {path : List Node} {node : Node} {message : Message}
    (member : message ∈ foldMessages hash pair path node) :
    ∃ before after, path = before ++ after ∧ fold hash pair before node = hash message ∧
      message ∈ foldMessages hash pair before node := by
  induction path generalizing node with
  | nil => cases member
  | cons sibling path induction =>
      rw [foldMessages_cons, List.mem_cons] at member
      rcases member with rfl | later
      · exact ⟨[sibling], path, rfl, rfl, List.mem_cons_self⟩
      · obtain ⟨before, after, rfl, leads, last⟩ := induction later
        exact ⟨sibling :: before, after, rfl, leads, List.mem_cons_of_mem _ last⟩

theorem mem_nodes_of_level {height : Nat} {level : List Node} {node : Node}
    (member : node ∈ level) : node ∈ nodes hash pair height level := by
  cases height with
  | zero => exact member
  | succ height => exact List.mem_append_left _ member

/-- Every node of a full level has a sibling. -/
theorem exists_sibling {level : List Node} {node : Node}
    (symm : ∀ left right, pair left right = pair right left) (even : level.length % 2 = 0)
    (member : node ∈ level) :
    ∃ sibling, pair node sibling ∈ pairMessages pair level ∧
      hash (pair node sibling) ∈ parents (parentOf hash pair) level := by
  induction level using parents.induct with
  | case1 left right rest induction =>
      rcases List.mem_cons.mp member with rfl | others
      · exact ⟨right, List.mem_cons_self, List.mem_cons_self⟩
      · rcases List.mem_cons.mp others with rfl | later
        · refine ⟨left, ?_, ?_⟩
          · rw [symm]
            exact List.mem_cons_self
          · rw [symm]
            exact List.mem_cons_self
        · have evenRest : rest.length % 2 = 0 := by
            rw [List.length_cons, List.length_cons] at even
            omega
          obtain ⟨sibling, hashed, parent⟩ := induction evenRest later
          exact ⟨sibling, List.mem_cons_of_mem _ hashed, List.mem_cons_of_mem _ parent⟩
  | case2 level short =>
      rcases level with _ | ⟨first, _ | ⟨second, rest⟩⟩
      · cases member
      · simp at even
      · exact absurd rfl (short first second rest)

/-- Every node has a path to the root through messages of the tree. -/
theorem exists_path {height : Nat} {level : List Node} {node : Node}
    (symm : ∀ left right, pair left right = pair right left) (full : level.length = 2 ^ height)
    (member : node ∈ nodes hash pair height level) :
    ∃ path, (ascend (parentOf hash pair) height level).head? = some (fold hash pair path node) ∧
      ∀ message ∈ foldMessages hash pair path node,
        message ∈ treeMessages hash pair height level := by
  induction height generalizing level node with
  | zero =>
      obtain ⟨only, rfl⟩ := List.length_eq_one_iff.mp full
      refine ⟨[], ?_, fun message none => by cases none⟩
      rw [List.mem_singleton.mp member]
      rfl
  | succ height induction =>
      have half : (parents (parentOf hash pair) level).length = 2 ^ height := by
        rw [length_parents, full]
        omega
      rcases List.mem_append.mp member with below | above
      · obtain ⟨sibling, hashed, parent⟩ := exists_sibling symm (by rw [full]; omega) below
        obtain ⟨path, leads, inside⟩ := induction half (mem_nodes_of_level parent)
        refine ⟨sibling :: path, leads, ?_⟩
        intro message onPath
        rcases List.mem_cons.mp onPath with rfl | later
        · exact List.mem_append_left _ hashed
        · exact List.mem_append_right _ (inside message later)
      · obtain ⟨path, leads, inside⟩ := induction half above
        exact ⟨path, leads, fun message onPath => List.mem_append_right _ (inside message onPath)⟩

/-- A hashed pair is the message of a node. -/
theorem mem_nodes_of_treeMessages {height : Nat} {level : List Node} {message : Message}
    (hashed : message ∈ treeMessages hash pair height level) :
    hash message ∈ nodes hash pair height level := by
  induction height generalizing level with
  | zero => cases hashed
  | succ height induction =>
      rcases List.mem_append.mp hashed with below | above
      · apply List.mem_append_right
        apply mem_nodes_of_level
        clear induction hashed
        induction level using parents.induct with
        | case1 left right rest induction =>
            rcases List.mem_cons.mp below with rfl | later
            · exact List.mem_cons_self
            · exact List.mem_cons_of_mem _ (induction later)
        | case2 level short =>
            rcases level with _ | ⟨first, _ | ⟨second, rest⟩⟩
            · cases below
            · cases below
            · exact absurd rfl (short first second rest)
      · exact List.mem_append_right _ (induction above)

theorem exists_pair_of_treeMessages {height : Nat} {level : List Node} {message : Message}
    (hashed : message ∈ treeMessages hash pair height level) :
    ∃ left right, message = pair left right := by
  induction height generalizing level with
  | zero => cases hashed
  | succ height induction =>
      rcases List.mem_append.mp hashed with below | above
      · clear induction hashed
        induction level using parents.induct with
        | case1 left right rest induction =>
            rcases List.mem_cons.mp below with rfl | later
            · exact ⟨left, right, rfl⟩
            · exact induction later
        | case2 level short =>
            rcases level with _ | ⟨first, _ | ⟨second, rest⟩⟩
            · cases below
            · cases below
            · exact absurd rfl (short first second rest)
      · exact induction above

end AlignedLayer.MerkleTree
