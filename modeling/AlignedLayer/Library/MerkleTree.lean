import Mathlib.Algebra.Group.Nat.Even
import Mathlib.Data.Nat.Log
import Mathlib.Data.Set.Function

/-!
# Binary Merkle trees

A tree is built level by level from a list of nodes that has been padded to a
power of two by repeating its last element.  A path holds the siblings from
the leaf to the root; climbing it recomputes the root.  Completeness says that
the path of a leaf leads to the root, soundness that nothing else does unless
a message is hashed both as a leaf and as a pair, or two messages collide.
-/

namespace AlignedLayer.MerkleTree

section Build

variable {Node : Type} (parent : Node → Node → Node)

/-- The next level: every node is the parent of two neighbours. -/
def parents : List Node → List Node
  | left :: right :: rest => parent left right :: parents rest
  | _ => []

/-- The level that lies the given number of levels higher. -/
def ascend : Nat → List Node → List Node
  | 0, level => level
  | height + 1, level => ascend height (parents parent level)

def depth (leaves : List Node) : Nat :=
  Nat.clog 2 leaves.length

/-- The leaves, with the last one repeated up to a power of two. -/
def padded (leaves : List Node) : List Node :=
  leaves ++ (leaves.getLast?.map
    (List.replicate (2 ^ depth leaves - leaves.length))).getD []

/-- There is no tree without leaves. -/
def root (leaves : List Node) : Option Node :=
  if leaves = [] then none else (ascend parent (depth leaves) (padded leaves)).head?

def siblingIndex (index : Nat) : Nat :=
  if index % 2 = 0 then index + 1 else index - 1

/-- The siblings on the way from a position of the level to the root. -/
def siblings : Nat → List Node → Nat → List Node
  | 0, _, _ => []
  | height + 1, level, index =>
      level[siblingIndex index]?.toList ++ siblings height (parents parent level) (index / 2)

/-- The path of the leaf at a position. -/
def proofByPos (leaves : List Node) (index : Nat) : Option (List Node) :=
  if index < leaves.length then some (siblings parent (depth leaves) (padded leaves) index)
  else none

/-- The node a path leads to; the parity of the index tells the side. -/
def climb : List Node → Nat → Node → Node
  | [], _, node => node
  | sibling :: path, index, node =>
      climb path (index / 2)
        (if index % 2 = 0 then parent node sibling else parent sibling node)

end Build

/-! ## Completeness -/

section Completeness

variable {Node : Type} {parent : Node → Node → Node}

@[simp] theorem length_parents (level : List Node) :
    (parents parent level).length = level.length / 2 := by
  induction level using parents.induct with
  | case1 left right rest induction =>
      simp only [parents, List.length_cons, induction]
      omega
  | case2 level short =>
      rcases level with _ | ⟨first, _ | ⟨second, rest⟩⟩
      · simp [parents]
      · simp [parents]
      · exact absurd rfl (short first second rest)

theorem getElem?_parents (level : List Node) (index : Nat) {left right : Node}
    (isLeft : level[2 * index]? = some left) (isRight : level[2 * index + 1]? = some right) :
    (parents parent level)[index]? = some (parent left right) := by
  induction level using parents.induct generalizing index with
  | case1 first second rest induction =>
      cases index with
      | zero =>
          simp only [Nat.mul_zero, List.getElem?_cons_zero, Option.some.injEq] at isLeft
          simp only [Nat.mul_zero, Nat.zero_add, List.getElem?_cons_succ,
            List.getElem?_cons_zero, Option.some.injEq] at isRight
          subst isLeft isRight
          rfl
      | succ index =>
          have twice : 2 * (index + 1) = 2 * index + 1 + 1 := by omega
          rw [twice, List.getElem?_cons_succ, List.getElem?_cons_succ] at isLeft
          rw [twice, List.getElem?_cons_succ, List.getElem?_cons_succ] at isRight
          rw [parents, List.getElem?_cons_succ]
          exact induction index isLeft isRight
  | case2 level short =>
      have bound := (List.getElem?_eq_some_iff.mp isRight).1
      rcases level with _ | ⟨first, _ | ⟨second, rest⟩⟩
      · simp at bound
      · simp at bound
      · exact absurd rfl (short first second rest)

theorem climb_siblings {height : Nat} {level : List Node} {index : Nat} {node : Node}
    (full : level.length = 2 ^ height) (found : level[index]? = some node) :
    (ascend parent height level).head? =
      some (climb parent (siblings parent height level index) index node) := by
  induction height generalizing level index node with
  | zero =>
      have bound := (List.getElem?_eq_some_iff.mp found).1
      have first : index = 0 := by omega
      subst first
      rw [List.head?_eq_getElem?]
      exact found
  | succ height induction =>
      have bound := (List.getElem?_eq_some_iff.mp found).1
      obtain ⟨other, sibling⟩ : ∃ other, level[siblingIndex index]? = some other := by
        have inside : siblingIndex index < level.length := by
          rw [siblingIndex]
          split <;> omega
        exact ⟨_, List.getElem?_eq_getElem inside⟩
      rw [siblings, sibling, ascend]
      apply induction
      · rw [length_parents, full]
        omega
      · by_cases even : index % 2 = 0
        · rw [siblingIndex, if_pos even] at sibling
          rw [if_pos even]
          apply getElem?_parents level (index / 2)
          · rw [show 2 * (index / 2) = index by omega]
            exact found
          · rw [show 2 * (index / 2) + 1 = index + 1 by omega]
            exact sibling
        · rw [siblingIndex, if_neg even] at sibling
          rw [if_neg even]
          apply getElem?_parents level (index / 2)
          · rw [show 2 * (index / 2) = index - 1 by omega]
            exact sibling
          · rw [show 2 * (index / 2) + 1 = index by omega]
            exact found

theorem length_le_depth (leaves : List Node) : leaves.length ≤ 2 ^ depth leaves :=
  Nat.le_pow_clog (by decide) _

theorem length_padded {leaves : List Node} (nonempty : leaves ≠ []) :
    (padded leaves).length = 2 ^ depth leaves := by
  have bound := length_le_depth leaves
  rw [padded, List.getLast?_eq_some_getLast nonempty]
  simp only [Option.map_some, Option.getD_some, List.length_append, List.length_replicate]
  omega

/-- The path of every leaf leads to the root. -/
theorem root_eq_climb {leaves : List Node} {index : Nat} {leaf : Node}
    (found : leaves[index]? = some leaf) :
    ∃ path, proofByPos parent leaves index = some path ∧
      root parent leaves = some (climb parent path index leaf) := by
  have bound := (List.getElem?_eq_some_iff.mp found).1
  have nonempty : leaves ≠ [] := List.ne_nil_of_length_pos (Nat.zero_lt_of_lt bound)
  refine ⟨_, if_pos bound, ?_⟩
  rw [root, if_neg nonempty]
  apply climb_siblings (length_padded nonempty)
  rw [padded, List.getElem?_append_left bound]
  exact found

theorem exists_root {leaves : List Node} (nonempty : leaves ≠ []) :
    ∃ node, root parent leaves = some node := by
  cases leaves with
  | nil => exact absurd rfl nonempty
  | cons leaf rest =>
      obtain ⟨path, -, climbed⟩ := @root_eq_climb _ parent (leaf :: rest) 0 leaf rfl
      exact ⟨_, climbed⟩

theorem root_singleton (leaf : Node) : root parent [leaf] = some leaf := by
  simp [root, depth, padded, ascend]

theorem mem_padded {leaves : List Node} {node : Node} :
    node ∈ padded leaves ↔ node ∈ leaves := by
  constructor
  · intro member
    rcases List.mem_append.mp member with original | repeated
    · exact original
    · cases last : leaves.getLast? with
      | none =>
          rw [last] at repeated
          cases repeated
      | some final =>
          rw [last, Option.map_some, Option.getD_some] at repeated
          rw [List.eq_of_mem_replicate repeated]
          exact List.mem_of_getLast? last
  · intro member
    exact List.mem_append_left _ member

end Completeness

/-! ## Soundness -/

section Soundness

variable {Node Message : Type} (hash : Message → Node) (pair : Node → Node → Message)

/-- A parent is the hash of the message made of its children. -/
def parentOf (left right : Node) : Node :=
  hash (pair left right)

/-- The messages that are hashed on one level. -/
def pairMessages : List Node → List Message
  | left :: right :: rest => pair left right :: pairMessages rest
  | _ => []

/-- The messages that are hashed above a level. -/
def treeMessages : Nat → List Node → List Message
  | 0, _ => []
  | height + 1, level =>
      pairMessages pair level ++ treeMessages height (parents (parentOf hash pair) level)

/-- The messages that are hashed while a path is climbed. -/
def climbMessages : List Node → Nat → Node → List Message
  | [], _, _ => []
  | sibling :: path, index, node =>
      let message := if index % 2 = 0 then pair node sibling else pair sibling node
      message :: climbMessages path (index / 2) (hash message)

/-- The nodes of a level and of the tree above it. -/
def nodes : Nat → List Node → List Node
  | 0, level => level
  | height + 1, level => level ++ nodes height (parents (parentOf hash pair) level)

/-- Every message that is hashed for a tree over the messages of the leaves,
and for climbing a path from another message. -/
def hashedMessages (leaves : List Message) (path : List Node) (index : Nat)
    (message : Message) : List Message :=
  message :: leaves ++
    treeMessages hash pair (depth (leaves.map hash)) (padded (leaves.map hash)) ++
    climbMessages hash pair path index (hash message)

variable {hash pair}

theorem mem_parents {level : List Node} {node : Node}
    (member : node ∈ parents (parentOf hash pair) level) :
    ∃ left ∈ level, ∃ right ∈ level, pair left right ∈ pairMessages pair level ∧
      node = hash (pair left right) := by
  induction level using parents.induct with
  | case1 first second rest induction =>
      rw [parents, List.mem_cons] at member
      rcases member with rfl | later
      · exact ⟨first, by simp, second, by simp, by simp [pairMessages], rfl⟩
      · obtain ⟨left, leftMember, right, rightMember, hashed, same⟩ := induction later
        refine ⟨left, ?_, right, ?_, ?_, same⟩
        · exact List.mem_cons_of_mem _ (List.mem_cons_of_mem _ leftMember)
        · exact List.mem_cons_of_mem _ (List.mem_cons_of_mem _ rightMember)
        · exact List.mem_cons_of_mem _ hashed
  | case2 level short =>
      rcases level with _ | ⟨first, _ | ⟨second, rest⟩⟩
      · simp [parents] at member
      · simp [parents] at member
      · exact absurd rfl (short first second rest)

/-- A node that is not a leaf is the hash of a pair of nodes. -/
theorem mem_nodes {height : Nat} {level : List Node} {node : Node}
    (member : node ∈ nodes hash pair height level) :
    node ∈ level ∨
      ∃ left ∈ nodes hash pair height level,
        ∃ right ∈ nodes hash pair height level,
          pair left right ∈ treeMessages hash pair height level ∧
            node = hash (pair left right) := by
  induction height generalizing level with
  | zero => exact .inl member
  | succ height induction =>
      rw [nodes, List.mem_append] at member
      rcases member with leaf | above
      · exact .inl leaf
      · right
        rcases induction above with parent | ⟨left, leftMember, right, rightMember, hashed, same⟩
        · obtain ⟨left, leftMember, right, rightMember, hashed, same⟩ := mem_parents parent
          refine ⟨left, ?_, right, ?_, ?_, same⟩
          · exact List.mem_append_left _ leftMember
          · exact List.mem_append_left _ rightMember
          · exact List.mem_append_left _ hashed
        · refine ⟨left, ?_, right, ?_, ?_, same⟩
          · exact List.mem_append_right _ leftMember
          · exact List.mem_append_right _ rightMember
          · exact List.mem_append_right _ hashed

theorem ascend_subset_nodes {height : Nat} {level : List Node} {node : Node}
    (member : node ∈ ascend (parentOf hash pair) height level) :
    node ∈ nodes hash pair height level := by
  induction height generalizing level with
  | zero => exact member
  | succ height induction => exact List.mem_append_right _ (induction member)

theorem root_mem_nodes {leaves : List Node} {node : Node}
    (isRoot : root (parentOf hash pair) leaves = some node) :
    node ∈ nodes hash pair (depth leaves) (padded leaves) := by
  rw [root] at isRoot
  split at isRoot
  · cases isRoot
  · exact ascend_subset_nodes (List.mem_of_head? isRoot)

theorem mem_climbMessages {path : List Node} {index : Nat} {node : Node} {message : Message}
    (member : message ∈ climbMessages hash pair path index node) :
    ∃ left right, message = pair left right := by
  induction path generalizing index node with
  | nil => cases member
  | cons sibling path induction =>
      rw [climbMessages, List.mem_cons] at member
      rcases member with rfl | later
      · split
        · exact ⟨node, sibling, rfl⟩
        · exact ⟨sibling, node, rfl⟩
      · exact induction later

theorem climb_cons (sibling : Node) (path : List Node) (index : Nat) (node : Node) :
    climb (parentOf hash pair) (sibling :: path) index node =
      climb (parentOf hash pair) path (index / 2)
        (hash (if index % 2 = 0 then pair node sibling else pair sibling node)) := by
  rw [climb]
  split <;> rfl

/-- The node a path leads to is the hash of the last message on the way. -/
theorem exists_climb_eq (path : List Node) (index : Nat) (message : Message) :
    ∃ hashed ∈ message :: climbMessages hash pair path index (hash message),
      climb (parentOf hash pair) path index (hash message) = hash hashed := by
  induction path generalizing index message with
  | nil => exact ⟨message, List.mem_cons_self, rfl⟩
  | cons sibling path induction =>
      rw [climb_cons]
      obtain ⟨hashed, member, same⟩ := induction (index / 2)
        (if index % 2 = 0 then pair (hash message) sibling else pair sibling (hash message))
      exact ⟨hashed, List.mem_cons_of_mem _ member, same⟩

/-- A path that leads to a node of the tree stays inside the tree, or passes
through a leaf from below. -/
theorem climb_inside {height : Nat} {level path : List Node} {index : Nat} {node : Node}
    (pairs : ∀ left right left' right', pair left right = pair left' right' →
      (left = left' ∧ right = right') ∨ (left = right' ∧ right = left'))
    (free : Set.InjOn hash {message | message ∈ treeMessages hash pair height level ∨
      message ∈ climbMessages hash pair path index node})
    (reached : climb (parentOf hash pair) path index node ∈ nodes hash pair height level) :
    (node ∈ nodes hash pair height level ∧
        ∀ message ∈ climbMessages hash pair path index node,
          message ∈ treeMessages hash pair height level) ∨
      ∃ message ∈ climbMessages hash pair path index node, hash message ∈ level := by
  induction path generalizing index node with
  | nil => exact .inl ⟨reached, fun message member => by cases member⟩
  | cons sibling path induction =>
      rw [climb_cons] at reached
      have later := induction (free.mono fun message member =>
        member.imp_right (List.mem_cons_of_mem _)) reached
      rcases later with ⟨next, inside⟩ | ⟨message, member, leaf⟩
      · rcases mem_nodes next with leaf | ⟨left, leftNode, right, rightNode, hashed, same⟩
        · exact .inr ⟨_, List.mem_cons_self, leaf⟩
        · left
          have equal := free (.inr List.mem_cons_self) (.inl hashed) same
          constructor
          · split at equal
            · rcases pairs _ _ _ _ equal with ⟨isLeft, -⟩ | ⟨isRight, -⟩
              · rw [isLeft]
                exact leftNode
              · rw [isRight]
                exact rightNode
            · rcases pairs _ _ _ _ equal with ⟨-, isRight⟩ | ⟨-, isLeft⟩
              · rw [isRight]
                exact rightNode
              · rw [isLeft]
                exact leftNode
          · intro message member
            rcases List.mem_cons.mp member with rfl | after
            · rw [equal]
              exact hashed
            · exact inside message after
      · exact .inr ⟨message, List.mem_cons_of_mem _ member, leaf⟩

theorem climb_cases {height : Nat} {level path : List Node} {index : Nat} {node : Node}
    (pairs : ∀ left right left' right', pair left right = pair left' right' →
      (left = left' ∧ right = right') ∨ (left = right' ∧ right = left'))
    (free : Set.InjOn hash {message | message ∈ treeMessages hash pair height level ∨
      message ∈ climbMessages hash pair path index node})
    (reached : climb (parentOf hash pair) path index node ∈ nodes hash pair height level) :
    node ∈ nodes hash pair height level ∨
      ∃ message ∈ climbMessages hash pair path index node, hash message ∈ level :=
  (climb_inside pairs free reached).imp_left And.left

/-- Only a leaf has a path to the root, when no leaf is hashed like a pair. -/
theorem mem_of_climb {leaves : List Message} {message : Message} {path : List Node}
    {index : Nat}
    (pairs : ∀ left right left' right', pair left right = pair left' right' →
      (left = left' ∧ right = right') ∨ (left = right' ∧ right = left'))
    (notPair : ∀ leaf ∈ message :: leaves, ∀ left right, leaf ≠ pair left right)
    (free : Set.InjOn hash {hashed | hashed ∈ hashedMessages hash pair leaves path index message})
    (reached : root (parentOf hash pair) (leaves.map hash) =
      some (climb (parentOf hash pair) path index (hash message))) :
    message ∈ leaves := by
  have own : message ∈ hashedMessages hash pair leaves path index message := by
    simp [hashedMessages]
  have leafHashed : ∀ leaf ∈ leaves, leaf ∈ hashedMessages hash pair leaves path index message := by
    intro leaf member
    simp [hashedMessages, member]
  have start := climb_cases pairs (free.mono fun hashed member => by
    rcases member with inTree | inPath
    · exact List.mem_append_left _ (List.mem_append_right _ inTree)
    · exact List.mem_append_right _ inPath) (root_mem_nodes reached)
  rcases start with node | ⟨hashed, member, leaf⟩
  · rcases mem_nodes node with leaf | ⟨left, -, right, -, hashed, same⟩
    · obtain ⟨original, member, same⟩ := List.mem_map.mp (mem_padded.mp leaf)
      rw [← free (leafHashed original member) own same]
      exact member
    · have equal := free own (List.mem_append_left _ (List.mem_append_right _ hashed)) same
      exact absurd equal (notPair message List.mem_cons_self left right)
  · obtain ⟨original, originalMember, same⟩ := List.mem_map.mp (mem_padded.mp leaf)
    obtain ⟨left, right, isPair⟩ := mem_climbMessages member
    have equal := free (leafHashed original originalMember) (List.mem_append_right _ member) same
    exact absurd (equal.trans isPair)
      (notPair original (List.mem_cons_of_mem _ originalMember) left right)

end Soundness

end AlignedLayer.MerkleTree
