import AlignedLayer.Library.MerkleTree

/-!
# A Merkle root determines its leaves

Two levels with the same parents are the same when no two pairs collide.  So
two trees with one root have the same leaves when they are equally high; when
one is higher, its nodes at the height of the other's leaves are leaves and
hashes of pairs at once.
-/

namespace AlignedLayer.MerkleTree

section Levels

variable {Node Message : Type} {hash : Message → Node} {pair : Node → Node → Message}

theorem ascend_add (lower upper : Nat) (level : List Node) :
    ascend (parentOf hash pair) (lower + upper) level =
      ascend (parentOf hash pair) upper (ascend (parentOf hash pair) lower level) := by
  induction lower generalizing level with
  | zero => rw [Nat.zero_add, ascend]
  | succ lower induction => rw [Nat.succ_add, ascend, ascend, induction]

theorem treeMessages_add (lower upper : Nat) (level : List Node) :
    treeMessages hash pair (lower + upper) level =
      treeMessages hash pair lower level ++
        treeMessages hash pair upper (ascend (parentOf hash pair) lower level) := by
  induction lower generalizing level with
  | zero => rw [Nat.zero_add, treeMessages, ascend, List.nil_append]
  | succ lower induction =>
      rw [Nat.succ_add, treeMessages, treeMessages, ascend, induction, List.append_assoc]

theorem length_ascend {height above : Nat} {level : List Node}
    (full : level.length = 2 ^ (height + above)) :
    (ascend (parentOf hash pair) height level).length = 2 ^ above := by
  induction height generalizing level with
  | zero => rwa [Nat.zero_add] at full
  | succ height induction =>
      rw [ascend]
      apply induction
      rw [length_parents, full, Nat.succ_add, Nat.pow_succ, Nat.mul_div_cancel _ Nat.two_pos]

/-- Two levels of the same even length with the same parents are the same. -/
theorem eq_of_parents {left right : List Node}
    (pairs : ∀ first second first' second', pair first second = pair first' second' →
      first = first' ∧ second = second')
    (free : Set.InjOn hash {message | message ∈ pairMessages pair left ∨
      message ∈ pairMessages pair right})
    (even : left.length % 2 = 0) (sameLength : left.length = right.length)
    (same : parents (parentOf hash pair) left = parents (parentOf hash pair) right) :
    left = right := by
  induction left using parents.induct generalizing right with
  | case1 first second rest induction =>
      rcases right with _ | ⟨first', _ | ⟨second', rest'⟩⟩
      · simp at sameLength
      · simp at sameLength
      · simp only [parents, List.cons.injEq] at same
        obtain ⟨sameParent, sameRest⟩ := same
        have equal := free (.inl (by simp [pairMessages])) (.inr (by simp [pairMessages])) sameParent
        obtain ⟨rfl, rfl⟩ := pairs _ _ _ _ equal
        simp only [List.length_cons, Nat.add_right_cancel_iff] at sameLength
        simp only [List.length_cons] at even
        have restEven : rest.length % 2 = 0 := by omega
        have fewer : Set.InjOn hash {message | message ∈ pairMessages pair rest ∨
            message ∈ pairMessages pair rest'} := by
          apply free.mono
          intro message member
          exact member.imp (List.mem_cons_of_mem _) (List.mem_cons_of_mem _)
        rw [induction fewer restEven sameLength sameRest]
  | case2 level short =>
      rcases level with _ | ⟨first, _ | ⟨second, rest⟩⟩
      · exact (List.length_eq_zero_iff.mp sameLength.symm).symm
      · simp at even
      · exact absurd rfl (short first second rest)

/-- Two full levels below the same root are the same. -/
theorem eq_of_ascend {height : Nat} {left right : List Node}
    (pairs : ∀ first second first' second', pair first second = pair first' second' →
      first = first' ∧ second = second')
    (free : Set.InjOn hash {message | message ∈ treeMessages hash pair height left ∨
      message ∈ treeMessages hash pair height right})
    (leftFull : left.length = 2 ^ height) (rightFull : right.length = 2 ^ height)
    (same : ascend (parentOf hash pair) height left =
      ascend (parentOf hash pair) height right) : left = right := by
  induction height generalizing left right with
  | zero => exact same
  | succ height induction =>
      have half : ∀ {level : List Node}, level.length = 2 ^ (height + 1) →
          (parents (parentOf hash pair) level).length = 2 ^ height := by
        intro level full
        rw [length_parents, full, Nat.pow_succ, Nat.mul_div_cancel _ Nat.two_pos]
      have above : parents (parentOf hash pair) left = parents (parentOf hash pair) right := by
        apply induction ?_ (half leftFull) (half rightFull) same
        apply free.mono
        intro message member
        exact member.imp (List.mem_append_right _) (List.mem_append_right _)
      apply eq_of_parents pairs ?_ ?_ (leftFull.trans rightFull.symm) above
      · apply free.mono
        intro message member
        exact member.imp (List.mem_append_left _) (List.mem_append_left _)
      · rw [leftFull, Nat.pow_succ, Nat.mul_mod_left]

/-- The nodes above a level are hashes of pairs. -/
theorem mem_ascend_succ {height : Nat} {level : List Node} {node : Node}
    (member : node ∈ ascend (parentOf hash pair) (height + 1) level) :
    ∃ left right, pair left right ∈ treeMessages hash pair (height + 1) level ∧
      node = hash (pair left right) := by
  induction height generalizing level with
  | zero =>
      obtain ⟨left, -, right, -, hashed, same⟩ := mem_parents member
      exact ⟨left, right, List.mem_append_left _ hashed, same⟩
  | succ height induction =>
      obtain ⟨left, right, hashed, same⟩ := induction member
      exact ⟨left, right, List.mem_append_right _ hashed, same⟩

end Levels

/-! ## Padding -/

section Padding

variable {Item : Type}

theorem padded_map {Image : Type} (image : Item → Image) (leaves : List Item) :
    padded (leaves.map image) = (padded leaves).map image := by
  have sameDepth : depth (leaves.map image) = depth leaves := by
    rw [depth, depth, List.length_map]
  rw [padded, padded, sameDepth, List.map_append, List.getLast?_map, List.length_map]
  cases leaves.getLast? with
  | none => rfl
  | some last => simp

/-- Lists are equal when their images are, and no two of their elements have
the same image. -/
theorem eq_of_map_eq {Image : Type} {image : Item → Image} {left right : List Item}
    (injective : Set.InjOn image {item | item ∈ left ∨ item ∈ right})
    (same : left.map image = right.map image) : left = right := by
  induction left generalizing right with
  | nil => exact (List.map_eq_nil_iff.mp same.symm).symm
  | cons item rest induction =>
      cases right with
      | nil => cases same
      | cons other rest' =>
          rw [List.map_cons, List.map_cons, List.cons.injEq] at same
          rw [injective (.inl List.mem_cons_self) (.inr List.mem_cons_self) same.1]
          congr 1
          apply induction ?_ same.2
          apply injective.mono
          intro item member
          exact member.imp (List.mem_cons_of_mem _) (List.mem_cons_of_mem _)

/-- A padded list is the list and repetitions of its last element. -/
theorem padded_eq {leaves : List Item} (nonempty : leaves ≠ []) :
    padded leaves = leaves ++ List.replicate (2 ^ depth leaves - leaves.length)
      (leaves.getLast nonempty) := by
  rw [padded, List.getLast?_eq_some_getLast nonempty]
  rfl

/-- Lists that are padded to the same one differ in trailing repetitions only. -/
theorem eq_append_replicate_of_padded {left right : List Item} (leftNonempty : left ≠ [])
    (rightNonempty : right ≠ []) (same : padded left = padded right)
    (shorter : left.length ≤ right.length) :
    right = left ++ List.replicate (right.length - left.length) (left.getLast leftNonempty) := by
  have isPrefix : right <+: left ++ List.replicate (2 ^ depth left - left.length)
      (left.getLast leftNonempty) := by
    rw [← padded_eq leftNonempty, same, padded_eq rightNonempty]
    exact List.prefix_append _ _
  have bound := isPrefix.length_le
  rw [List.length_append, List.length_replicate] at bound
  have taken := List.prefix_iff_eq_take.mp isPrefix
  rw [List.take_append, List.take_of_length_le shorter, List.take_replicate,
    Nat.min_eq_left (by omega)] at taken
  exact taken

end Padding

/-! ## Roots -/

section Roots

variable {Node Message : Type} (hash : Message → Node) (pair : Node → Node → Message)

/-- The messages that are hashed for the tree over the messages of the leaves. -/
def rootMessages (leaves : List Message) : List Message :=
  leaves ++ treeMessages hash pair (depth (leaves.map hash)) (padded (leaves.map hash))

variable {hash pair}

theorem ascend_eq_singleton {leaves : List Node} {node : Node}
    (isRoot : root (parentOf hash pair) leaves = some node) :
    ascend (parentOf hash pair) (depth leaves) (padded leaves) = [node] := by
  rw [root] at isRoot
  split at isRoot
  case isTrue => cases isRoot
  case isFalse nonempty =>
    have single : (ascend (parentOf hash pair) (depth leaves) (padded leaves)).length = 1 :=
      @length_ascend _ _ hash pair (depth leaves) 0 _ (length_padded nonempty)
    obtain ⟨only, isOnly⟩ := List.length_eq_one_iff.mp single
    rw [isOnly, List.head?_cons, Option.some.injEq] at isRoot
    rw [isOnly, isRoot]

/-- With the same root, the tree that is not higher has the leaves of the other. -/
theorem padded_eq_of_root_of_le {left right : List Message} {node : Node}
    (pairs : ∀ first second first' second', pair first second = pair first' second' →
      first = first' ∧ second = second')
    (notPair : ∀ leaf ∈ left, ∀ first second, leaf ≠ pair first second)
    (free : Set.InjOn hash {message | message ∈ rootMessages hash pair left ∨
      message ∈ rootMessages hash pair right})
    (leftRoot : root (parentOf hash pair) (left.map hash) = some node)
    (rightRoot : root (parentOf hash pair) (right.map hash) = some node)
    (lower : depth (left.map hash) ≤ depth (right.map hash)) :
    padded (left.map hash) = padded (right.map hash) := by
  have nonempty : ∀ {leaves : List Message},
      root (parentOf hash pair) (leaves.map hash) = some node → leaves.map hash ≠ [] := by
    rintro leaves isRoot nothing
    rw [nothing] at isRoot
    cases isRoot
  have leftFull := length_padded (nonempty leftRoot)
  have rightFull := length_padded (nonempty rightRoot)
  obtain ⟨between, heights⟩ := Nat.exists_eq_add_of_le' lower
  rw [heights] at rightFull
  have top := (ascend_eq_singleton leftRoot).trans (ascend_eq_singleton rightRoot).symm
  rw [heights, ascend_add] at top
  have rightMessages := @treeMessages_add _ _ hash pair between
    (depth (left.map hash)) (padded (right.map hash))
  rw [← heights] at rightMessages
  have level : padded (left.map hash) =
      ascend (parentOf hash pair) between (padded (right.map hash)) := by
    apply eq_of_ascend pairs ?_ leftFull (length_ascend rightFull) top
    apply free.mono
    rintro message (inLeft | inRight)
    · exact .inl (List.mem_append_right _ inLeft)
    · refine .inr (List.mem_append_right _ ?_)
      rw [rightMessages]
      exact List.mem_append_right _ inRight
  cases between with
  | zero => exact level
  | succ between =>
      -- Every leaf of the lower tree would be the hash of a pair.
      obtain ⟨leaf, member⟩ := List.exists_mem_of_ne_nil _ (nonempty leftRoot)
      have inLevel := mem_padded.mpr member
      rw [level] at inLevel
      obtain ⟨first, second, hashed, same⟩ := mem_ascend_succ inLevel
      obtain ⟨message, messageMember, rfl⟩ := List.mem_map.mp member
      have pairHashed : pair first second ∈ rootMessages hash pair right := by
        apply List.mem_append_right
        rw [rightMessages]
        exact List.mem_append_left _ hashed
      have equal := free (.inl (List.mem_append_left _ messageMember)) (.inr pairHashed) same
      exact absurd equal (notPair message messageMember first second)

/-- Two lists of leaves with the same root are padded to the same list. -/
theorem padded_eq_of_root {left right : List Message} {node : Node}
    (pairs : ∀ first second first' second', pair first second = pair first' second' →
      first = first' ∧ second = second')
    (notPair : ∀ leaf ∈ left ++ right, ∀ first second, leaf ≠ pair first second)
    (free : Set.InjOn hash {message | message ∈ rootMessages hash pair left ∨
      message ∈ rootMessages hash pair right})
    (leftRoot : root (parentOf hash pair) (left.map hash) = some node)
    (rightRoot : root (parentOf hash pair) (right.map hash) = some node) :
    padded left = padded right := by
  have sameNodes : padded (left.map hash) = padded (right.map hash) := by
    rcases Nat.le_total (depth (left.map hash)) (depth (right.map hash)) with lower | higher
    · exact padded_eq_of_root_of_le pairs
        (fun leaf member => notPair leaf (List.mem_append_left _ member)) free leftRoot rightRoot
        lower
    · symm
      apply padded_eq_of_root_of_le pairs
        (fun leaf member => notPair leaf (List.mem_append_right _ member)) ?_ rightRoot leftRoot
        higher
      exact free.mono fun message member => member.symm
  rw [padded_map, padded_map] at sameNodes
  apply eq_of_map_eq ?_ sameNodes
  apply free.mono
  intro message member
  exact member.imp (fun inLeft => List.mem_append_left _ (mem_padded.mp inLeft))
    fun inRight => List.mem_append_left _ (mem_padded.mp inRight)

end Roots

end AlignedLayer.MerkleTree
