import ChainFollower.Store.Record
import ChainFollower.Within

namespace ChainFollower

inductive StoreError
  /-- The file system refused. -/
  | io
  | corrupted (detail : String)
  deriving DecidableEq, Repr

def StoreError.message : StoreError → String
  | .io => "I/O error"
  | .corrupted detail => "corrupted data: " ++ detail

/-- A store inside something larger: every call may fail and may change what it stands in. -/
structure Store (σ : Type) where
  /-- The current state, if one has been committed. -/
  load : σ → Except StoreError (Option StoredState) × σ
  commit : Commit → σ → Except StoreError Unit × σ
  undo : Tip → σ → Except StoreError (Option UndoRecord) × σ
  /-- Removes the undo records below a height and counts them. -/
  prune : UInt64 → σ → Except StoreError Nat × σ
  /-- The heights of all undo records, ascending, one for each record. -/
  heights : σ → Except StoreError (List UInt64) × σ

/-- A store that stands in a part of a larger whole. -/
def Store.lift {σ τ : Type} (get : σ → τ) (set : τ → σ → σ) (store : Store τ) : Store σ where
  load := within get set store.load
  commit c := within get set (store.commit c)
  undo tip := within get set (store.undo tip)
  prune height := within get set (store.prune height)
  heights := within get set store.heights

end ChainFollower
