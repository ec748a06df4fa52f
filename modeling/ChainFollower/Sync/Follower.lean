import ChainFollower.Notify.Notification
import ChainFollower.Sync.Retry
import ChainFollower.Sync.Status

namespace ChainFollower

/-- What is known locally once a game has been initialized. -/
structure View where
  network : Network
  initial : Tip
  current : StoredState
  deriving DecidableEq

/-- A game on its initial block has no business with blocks up to there. -/
def View.predates (v : View) (h : Header) : Bool :=
  v.current.tip = v.initial && h.height ≤ v.initial.height

/-- A follower keeps the state of one game on the canonical chain. A notification that extends or shortens
the local tip by one block is taken at its word. Anything else makes the follower walk: it asks for the
canonical tip, undoes local blocks down to the fork and applies the canonical branch, one commit a block. -/
structure Follower where
  game : String
  retry : RetryPolicy
  /-- Undo records are kept for this many blocks below the tip; all of them where it is absent. -/
  pruning : Option UInt64
  state : SyncState
  view : Option View
  watch : Watch

/-- What a call asks for. -/
inductive Request
  | chain (q : Query)
  | load
  | commit (c : Commit)
  | undo (tip : Tip)
  | prune (below : UInt64)
  | initial (network : Network)
  | forward (network : Network) (state : Bytes) (block : Json)
  | backward (network : Network) (state : Bytes) (block : Json) (undo : Bytes)

def Request.Reply : Request → Type
  | .chain q => q.Answer
  | .load => Except StoreError (Option StoredState)
  | .commit _ => Except StoreError Unit
  | .undo _ => Except StoreError (Option UndoRecord)
  | .prune _ => Except StoreError Nat
  | .initial _ => Except GameFailure InitialState
  | .forward .. => Except GameFailure ForwardStep
  | .backward .. => Except GameFailure Bytes

/-- Chain, store and game of a follower, inside something larger. -/
structure Host (σ : Type) where
  source : Source σ
  store : Store σ
  game : Game σ

def Host.answer {σ : Type} (h : Host σ) : (r : Request) → σ → r.Reply × σ
  | .chain q => h.source.answer q
  | .load => h.store.load
  | .commit c => h.store.commit c
  | .undo tip => h.store.undo tip
  | .prune below => h.store.prune below
  | .initial network => h.game.initial network
  | .forward network state block => h.game.forward network state block
  | .backward network state block undo => h.game.backward network state block undo

/-- How a call goes on. -/
inductive Progress (C R H : Type)
  /-- It asks for something. -/
  | asks (call : C)
  /-- It waits, and then asks for something. -/
  | rests (d : Duration) (call : C)
  | returned (result : R)
  | halted (h : H)

/-- Why a block is applied or undone: it was notified, or it lies on the walk to `target`, which is in
its `attempt`th attempt. -/
inductive Cause
  | notified
  | walk (attempt : Nat) (target : Tip)
  deriving DecidableEq

/-- A call at the point where it waits for a reply. -/
inductive Call
  /-- Initializing: the network is asked for. -/
  | identify (attempt : Nat)
  | begin (network : Network)
  | resume (network : Network) (initial : InitialState)
  | create (network : Network) (initial : InitialState)
  /-- Walking: the canonical tip is asked for. -/
  | target (attempt : Nat)
  /-- The canonical block at the height of the local tip. -/
  | compare (attempt : Nat) (target tip : Tip)
  /-- The block of the local tip, which is not canonical. -/
  | fetchStale (attempt : Nat) (target tip : Tip)
  /-- The canonical block above the local tip. -/
  | next (attempt : Nat) (target tip : Tip)
  | fetchNext (attempt : Nat) (target tip requested : Tip)
  /-- Undoing the tip of `view`: its record, the state before it, the commit. -/
  | lookup (cause : Cause) (view : View) (block : Json)
  | revert (cause : Cause) (view : View) (block : Json) (record : UndoRecord)
  | retreat (cause : Cause) (stored : StoredState)
  /-- Applying a block on the tip of `view`: the state after it, the commit, pruning. -/
  | apply (cause : Cause) (view : View) (header : Header) (block : Json)
  | advance (cause : Cause) (header : Header) (step : ForwardStep)
  | prune (cause : Cause) (tip : Tip) (below : UInt64)

namespace Follower

/-- A call ends well, or, while initializing, with an error. -/
abbrev Outcome := Except SyncError Unit

abbrev Next := Progress Call Outcome Halt

def start (game : String) (retry : RetryPolicy) (pruning : Option UInt64) : Follower :=
  ⟨game, retry, pruning, .uninitialized, none, .start⟩

def tip? (f : Follower) : Option Tip := f.view.map fun v => v.current.tip

def status (f : Follower) : Status := ⟨f.state, f.tip?⟩

def publish (f : Follower) : Follower := { f with watch := f.watch.publish f.status }

def setState (f : Follower) (state : SyncState) : Follower := publish { f with state }

def setCurrent (f : Follower) (stored : StoredState) : Follower :=
  publish { f with view := f.view.map fun v => { v with current := stored } }

/-- Out of step until the next notification. -/
def fail (f : Follower) : Follower :=
  if f.state = .uninitialized then f else f.setState .catchingUp

/-- The height below which records go when the tip reaches `height`. -/
def pruneBelow? (f : Follower) (height : UInt64) : Option UInt64 :=
  match f.pruning with
  | some depth => if depth ≤ height then some (height - depth) else none
  | none => none

def request (f : Follower) : Call → Request
  | .identify _ => .chain .info
  | .begin network => .initial network
  | .resume .. => .load
  | .create _ initial => .commit (.withoutUndo initial.tip initial.state)
  | .target _ => .chain .info
  | .compare _ _ tip => .chain (.hashAt tip.height)
  | .fetchStale _ _ tip => .chain (.block f.game tip.hash)
  | .next _ _ tip => .chain (.hashAt (tip.height + 1))
  | .fetchNext _ _ _ requested => .chain (.block f.game requested.hash)
  | .lookup _ view _ => .undo view.current.tip
  | .revert _ view block record => .backward view.network view.current.state block record.undo
  | .retreat _ stored => .commit (.withoutUndo stored.tip stored.state)
  | .apply _ view _ block => .forward view.network view.current.state block
  | .advance _ header step => .commit (.forward header.tip step.state header.parent step.undo)
  | .prune _ _ below => .prune below

/-- The end of a walk that met an error. An error of the chain lets it start over after a wait, as
often as the policy allows. -/
def walkFailed (f : Follower) (attempt : Nat) (e : SyncError) : Follower × Next :=
  match e with
  | .chain _ =>
    match f.retry.wait? attempt with
    | some d => (f, .rests d (.target (attempt + 1)))
    | none => (f.fail, .returned (.ok ()))
  | _ => (f.fail, .returned (.ok ()))

def stepFailed (f : Follower) (cause : Cause) (e : SyncError) : Follower × Next :=
  match cause with
  | .notified => (f.fail, .returned (.ok ()))
  | .walk attempt _ => f.walkFailed attempt e

/-- On the canonical chain at `tip`: the next block up, or the end. -/
def climb (f : Follower) (attempt : Nat) (target tip : Tip) : Follower × Next :=
  if target.height ≤ tip.height then (f.setState .synced, .returned (.ok ()))
  else (f, .asks (.next attempt target tip))

/-- The local tip is canonical. -/
def forkReached (f : Follower) (attempt : Nat) (target tip : Tip) : Follower × Next :=
  climb (if tip.height < target.height then f.setState .catchingUp else f) attempt target tip

/-- The header of a payload that was asked for by height and hash. -/
def checkBlock (requested : Tip) (payload : Json) : Except ChainError Header :=
  match payloadHeader payload with
  | .error m => .error (.badHeader requested m)
  | .ok header =>
    if header.tip = requested then .ok header else .error (.otherBlock requested header.tip)

def targetKnown (f : Follower) (attempt : Nat) (target : Tip) : Follower × Next :=
  match f.view with
  | none => f.walkFailed attempt (.notInitialized f.game)
  | some v =>
    if target = v.current.tip then (f.setState .synced, .returned (.ok ()))
    else if v.current.tip = v.initial ∧ target.height < v.initial.height then
      (f.setState .synced, .returned (.ok ()))
    else (f, .asks (.compare attempt target v.current.tip))

def compared (f : Follower) (attempt : Nat) (target tip : Tip) (canonical : Option Hash) :
    Follower × Next :=
  if canonical = some tip.hash then f.forkReached attempt target tip
  else (f.setState .reorganizing, .asks (.fetchStale attempt target tip))

def staleFetched (f : Follower) (attempt : Nat) (target tip : Tip) (block : Json) :
    Follower × Next :=
  match checkBlock tip block with
  | .error e => f.walkFailed attempt (.chain e)
  | .ok _ =>
    match f.view with
    | none => f.walkFailed attempt (.notInitialized f.game)
    | some v => (f, .asks (.lookup (.walk attempt target) v block))

def nextKnown (f : Follower) (attempt : Nat) (target tip : Tip) : Option Hash → Follower × Next
  | none => f.walkFailed attempt (.chain (.noBlockAt (tip.height + 1) target))
  | some hash => (f, .asks (.fetchNext attempt target tip ⟨tip.height + 1, hash⟩))

def nextFetched (f : Follower) (attempt : Nat) (target tip requested : Tip) (block : Json) :
    Follower × Next :=
  match checkBlock requested block with
  | .error e => f.walkFailed attempt (.chain e)
  | .ok header =>
    if header.parent ≠ tip.hash then
      f.walkFailed attempt (.chain (.notExtending header.tip tip))
    else
      match f.view with
      | none => f.walkFailed attempt (.notInitialized f.game)
      | some v => (f, .asks (.apply (.walk attempt target) v header block))

def recordFound (f : Follower) (cause : Cause) (view : View) (block : Json) :
    Option UndoRecord → Follower × Next
  | none => (f, .halted (.noUndoRecord f.game view.current.tip))
  | some record => (f, .asks (.revert cause view block record))

def reverted (f : Follower) (cause : Cause) (view : View) (record : UndoRecord) (state : Bytes) :
    Follower × Next :=
  (f, .asks (.retreat cause ⟨⟨lower view.current.tip.height, record.parent⟩, state⟩))

/-- The tip has been undone and committed. -/
def retreated (f : Follower) (cause : Cause) (stored : StoredState) : Follower × Next :=
  let f := f.setCurrent stored
  match cause with
  | .notified => (f, .returned (.ok ()))
  | .walk attempt target => (f, .asks (.compare attempt target stored.tip))

/-- A block has been applied and committed, and its pruning is over. -/
def applied (f : Follower) (cause : Cause) (tip : Tip) : Follower × Next :=
  match cause with
  | .notified => (f, .returned (.ok ()))
  | .walk attempt target => f.climb attempt target tip

/-- A block has been applied and committed. -/
def advanced (f : Follower) (cause : Cause) (header : Header) (step : ForwardStep) :
    Follower × Next :=
  let f := f.setCurrent ⟨header.tip, step.state⟩
  match f.pruneBelow? header.height with
  | some below => (f, .asks (.prune cause header.tip below))
  | none => f.applied cause header.tip

def settled (f : Follower) (network : Network) (initial : InitialState) (stored : StoredState) :
    Follower × Next :=
  (setState { f with view := some ⟨network, initial.tip, stored⟩ } .synced, .asks (.target 1))

/-- A call goes on with the reply it has waited for. -/
def proceed (f : Follower) : (call : Call) → (f.request call).Reply → Follower × Next
  | .identify attempt, reply =>
    match reply with
    | .error e =>
      match f.retry.wait? attempt with
      | some d => (f, .rests d (.identify (attempt + 1)))
      | none => (f, .returned (.error (.chain e)))
    | .ok info => (f, .asks (.begin info.network))
  | .begin network, reply =>
    match reply with
    | .error (.refused e) => (f, .halted (.noInitialState f.game e))
    | .error (.broken b) => (f, .halted (.breach b))
    | .ok initial => (f, .asks (.resume network initial))
  | .resume network initial, reply =>
    match reply with
    | .error e => (f, .returned (.error (.storage e)))
    | .ok (some stored) => f.settled network initial stored
    | .ok none => (f, .asks (.create network initial))
  | .create network initial, reply =>
    match reply with
    | .error e => (f, .returned (.error (.storage e)))
    | .ok () => f.settled network initial ⟨initial.tip, initial.state⟩
  | .target attempt, reply =>
    match reply with
    | .error e => f.walkFailed attempt (.chain e)
    | .ok info => f.targetKnown attempt info.tip
  | .compare attempt target tip, reply =>
    match reply with
    | .error e => f.walkFailed attempt (.chain e)
    | .ok canonical => f.compared attempt target tip canonical
  | .fetchStale attempt target tip, reply =>
    match reply with
    | .error e => f.walkFailed attempt (.chain e)
    | .ok block => f.staleFetched attempt target tip block
  | .next attempt target tip, reply =>
    match reply with
    | .error e => f.walkFailed attempt (.chain e)
    | .ok hash => f.nextKnown attempt target tip hash
  | .fetchNext attempt target tip requested, reply =>
    match reply with
    | .error e => f.walkFailed attempt (.chain e)
    | .ok block => f.nextFetched attempt target tip requested block
  | .lookup cause view block, reply =>
    match reply with
    | .error e => f.stepFailed cause (.storage e)
    | .ok record => f.recordFound cause view block record
  | .revert cause view _ record, reply =>
    match reply with
    | .error (.refused e) => (f, .halted (.notUndone f.game view.current.tip e))
    | .error (.broken b) => (f, .halted (.breach b))
    | .ok state => f.reverted cause view record state
  | .retreat cause stored, reply =>
    match reply with
    | .error e => f.stepFailed cause (.storage e)
    | .ok () => f.retreated cause stored
  | .apply cause _ header _, reply =>
    match reply with
    | .error (.refused e) => (f, .halted (.notApplied f.game header.tip e))
    | .error (.broken b) => (f, .halted (.breach b))
    | .ok step => (f, .asks (.advance cause header step))
  | .advance cause header step, reply =>
    match reply with
    | .error e => f.stepFailed cause (.storage e)
    | .ok () => f.advanced cause header step
  | .prune cause tip _, _ => f.applied cause tip

/-- Loads the stored state, or stores the game's initial one, and walks to the canonical tip. -/
def initialized (f : Follower) : Follower × Next := (f, .asks (.identify 1))

/-- Notifications may have been missed before this one moment. -/
def started (f : Follower) : Follower × Next :=
  if f.view.isSome then (f, .asks (.target 1)) else (f, .returned (.ok ()))

def attached (f : Follower) (n : Notification) : Follower × Next :=
  match payloadHeader n.payload with
  | .error m => (f, .halted (.noHeader n.kind n.game m))
  | .ok header =>
    match f.view with
    | none => (f, .returned (.ok ()))
    | some v =>
      if header.hash = v.current.tip.hash then (f, .returned (.ok ()))
      else if v.predates header then (f, .returned (.ok ()))
      else if f.state = .synced ∧ n.mismatch = false ∧ header.parent = v.current.tip.hash then
        (f, .asks (.apply .notified v header n.payload))
      else (f, .asks (.target 1))

def detached (f : Follower) (n : Notification) : Follower × Next :=
  match payloadHeader n.payload with
  | .error m => (f, .halted (.noHeader n.kind n.game m))
  | .ok header =>
    match f.view with
    | none => (f, .returned (.ok ()))
    | some v =>
      if v.predates header then (f, .returned (.ok ()))
      else if f.state = .synced ∧ n.mismatch = false ∧ header.hash = v.current.tip.hash then
        (f, .asks (.lookup .notified v n.payload))
      else (f, .asks (.target 1))

def notified (f : Follower) (n : Notification) : Follower × Next :=
  match n.kind with
  | .attach => f.attached n
  | .detach => f.detached n

end Follower

end ChainFollower
