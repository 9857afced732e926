import Mathlib.Data.List.Nodup
import Mathlib.Data.Set.Function

/-!
# Hash functions without collisions on a set of messages

No hash function into words of fixed length is injective, so injectivity is
only ever asked for on the messages a statement is about.  A distinguished
digest stands for an absent message and is not the digest of any of them.
-/

namespace AlignedLayer

structure CollisionFree {Message Digest : Type} (hash : Message → Digest) (absent : Digest)
    (messages : Set Message) : Prop where
  injective : ∀ left ∈ messages, ∀ right ∈ messages, hash left = hash right → left = right
  ne_absent : ∀ message ∈ messages, hash message ≠ absent

namespace CollisionFree

variable {Message Digest : Type} {hash : Message → Digest} {absent : Digest}
  {messages : Set Message}

theorem mono {fewer : Set Message} (free : CollisionFree hash absent messages)
    (subset : fewer ⊆ messages) : CollisionFree hash absent fewer :=
  ⟨fun left leftMember right rightMember =>
      free.injective left (subset leftMember) right (subset rightMember),
    fun message member => free.ne_absent message (subset member)⟩

/-- Digests of optional messages, with `absent` for a missing one, determine
the optional messages. -/
theorem option_eq (free : CollisionFree hash absent messages) {left right : Option Message}
    (leftMember : ∀ message ∈ left, message ∈ messages)
    (rightMember : ∀ message ∈ right, message ∈ messages)
    (same : (left.map hash).getD absent = (right.map hash).getD absent) : left = right := by
  cases left with
  | none =>
      cases right with
      | none => rfl
      | some message =>
          exact (free.ne_absent message (rightMember message rfl) same.symm).elim
  | some message =>
      cases right with
      | none => exact (free.ne_absent message (leftMember message rfl) same).elim
      | some other =>
          have equal : message = other :=
            free.injective message (leftMember message rfl) other (rightMember other rfl) same
          rw [equal]

end CollisionFree

/-- Finitely many messages do not collide if the digests of the distinct ones
are distinct. -/
theorem injOn_of_nodup {Message Digest : Type} {hash : Message → Digest}
    {messages distinct : List Message} (listed : ∀ message ∈ messages, message ∈ distinct)
    (nodup : (distinct.map hash).Nodup) : Set.InjOn hash {message | message ∈ messages} :=
  fun left leftMember right rightMember same =>
    List.inj_on_of_nodup_map nodup (listed left leftMember) (listed right rightMember) same

end AlignedLayer
