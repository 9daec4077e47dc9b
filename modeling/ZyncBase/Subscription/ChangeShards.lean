import ZyncBase.Lib.ShardedQueue
import ZyncBase.Query.Hasher
import ZyncBase.Storage.ChangeStream

/-! Committed changes on their way to the engine, through the shards of the change queue, each drained
by one worker. -/
namespace ZyncBase

open ShardedQueue

variable (hash : Bytes → ℕ) (numShards : ℕ)

def computeShard (c : OwnedRecordChange) : ℕ :=
  hash (fedBytes [.i64 c.namespaceId, .usize c.key.tableIndex, .int 16 c.key.id.val]) % numShards

lemma computeShard_slot (a b : OwnedRecordChange) (h : a.slot = b.slot) :
    computeShard hash numShards a = computeShard hash numShards b := by
  cases a
  cases b
  cases h
  rfl

/-- The workers of the shards are done with the changes of a document in the order in which they were
pushed, and when nothing is left, with each exactly once. -/
theorem changes_in_order (es : List (Event OwnedRecordChange)) (k : Slot) :
    let pool := Pool.run (computeShard hash numShards) es
    pool.done.filter (·.slot = k) <+: pool.pushed.filter (·.slot = k) ∧
      (pool.Idle → pool.done.filter (·.slot = k) = pool.pushed.filter (·.slot = k)) :=
  ⟨Pool.done_isPrefix (computeShard_slot hash numShards) k,
    fun h => Pool.done_eq_of_idle (computeShard_slot hash numShards) h k⟩

end ZyncBase
