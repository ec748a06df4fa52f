import ChainFollower.Proofs.Journal
import ChainFollower.Proofs.Sync.Reply

namespace ChainFollower

/-- What a store may reply, and what it may hold afterwards. A commit that fails keeps the current
state; its undo record may have been written. -/
def Holdings.Answers (held : Holdings) : (r : Request) → r.Reply → Holdings → Prop
  | .load, reply, held' => held' = held ∧ ∀ found, reply = .ok found → found = held.current
  | .commit c, reply, held' =>
    match reply with
    | .ok () => held' = held.commit c
    | .error _ =>
      held'.current = held.current ∧
        ∀ tip, held'.record tip = held.record tip ∨ held'.record tip = (held.commit c).record tip
  | .undo tip, reply, held' => held' = held ∧ ∀ found, reply = .ok found → found = held.record tip
  | .prune height, reply, held' =>
    match reply with
    | .ok _ => held' = held.dropBelow height
    | .error _ =>
      held'.current = held.current ∧
        ∀ tip, held'.record tip = held.record tip ∨
          held'.record tip = (held.dropBelow height).record tip
  | .chain _, _, held' => held' = held
  | .initial _, _, held' => held' = held
  | .forward .., _, held' => held' = held
  | .backward .., _, held' => held' = held

/-- A store that has replied holds as current what was committed last. -/
theorem Holdings.Answers.current_eq {held held' : Holdings} {r : Request} {reply : r.Reply}
    (h : held.Answers r reply held') :
    held'.current = ((r.committed reply).map Commit.stored).or held.current := by
  cases r with
  | chain q => exact h ▸ rfl
  | load => exact h.1 ▸ rfl
  | commit c =>
    cases reply with
    | ok u => exact h ▸ rfl
    | error e => exact h.1
  | undo tip => exact h.1 ▸ rfl
  | prune height =>
    cases reply with
    | ok n => exact h ▸ rfl
    | error e => exact h.1
  | initial network => exact h ▸ rfl
  | forward network state block => exact h ▸ rfl
  | backward network state block undo => exact h ▸ rfl

namespace Rules

/-- What chain and game may reply. The chain is that of one network, and a payload that it serves is
that of the block which the payload names; the game keeps to its rules. Either may fail at any time,
and the chain may report any tip and any hashes. -/
def Answers (R : Rules) (L : Ledger R.initial.tip) : (r : Request) → r.Reply → Prop
  | .chain .info, reply => ∀ info, reply = .ok info → info.network = R.network
  | .chain (.hashAt _), _ => True
  | .chain (.block game _), reply =>
    game = R.game → ∀ payload, reply = .ok payload → L.Admits payload
  | .initial network, reply =>
    network = R.network → ∀ initial, reply = .ok initial → initial = R.initial
  | .forward network state block, reply =>
    network = R.network → ∀ step, reply = .ok step → R.forward state block = some step
  | .backward network state block undo, reply =>
    network = R.network → ∀ before, reply = .ok before → R.backward state block undo = some before
  | .load, _ => True
  | .commit _, _ => True
  | .undo _, _ => True
  | .prune _, _ => True

end Rules

/-- A follower between two replies, and what its store holds. -/
structure Snapshot where
  follower : Follower
  next : Follower.Next
  held : Holdings

namespace Snapshot

variable (R : Rules) (L : Ledger R.initial.tip)

/-- One step of a life. -/
inductive Step : Snapshot → Snapshot → Prop
  | reply {f : Follower} {call : Call} {held held' : Holdings} (reply : (f.request call).Reply)
      (stored : held.Answers (f.request call) reply held')
      (told : R.Answers L (f.request call) reply) :
      Step ⟨f, .asks call, held⟩ ⟨(f.proceed call reply).1, (f.proceed call reply).2, held'⟩
  | wake {f : Follower} {d : Duration} {call : Call} {held : Holdings} :
      Step ⟨f, .rests d call, held⟩ ⟨f, .asks call, held⟩
  | initialized {f : Follower} {result : Follower.Outcome} {held : Holdings} :
      Step ⟨f, .returned result, held⟩ ⟨f.initialized.1, f.initialized.2, held⟩
  | started {f : Follower} {result : Follower.Outcome} {held : Holdings} :
      Step ⟨f, .returned result, held⟩ ⟨f.started.1, f.started.2, held⟩
  | notified {f : Follower} {result : Follower.Outcome} {held : Holdings} (n : Notification)
      (told : L.Admits n.payload) :
      Step ⟨f, .returned result, held⟩ ⟨(f.notified n).1, (f.notified n).2, held⟩
  | restart {f : Follower} {next : Follower.Next} {held : Holdings} (retry : RetryPolicy)
      (pruning : Option UInt64) :
      Step ⟨f, next, held⟩ ⟨.start R.game retry pruning, .returned (.ok ()), held⟩

/-- The moments of all lives that begin with an empty store. -/
inductive Reached : Snapshot → Prop
  | start (retry : RetryPolicy) (pruning : Option UInt64) :
      Reached ⟨.start R.game retry pruning, .returned (.ok ()), .empty⟩
  | step {m m' : Snapshot} : Reached m → Step R L m m' → Reached m'

theorem Reached.reply {R : Rules} {L : Ledger R.initial.tip} {f : Follower} (call : Call)
    {held held' : Holdings} (h : Reached R L ⟨f, .asks call, held⟩)
    (reply : (f.request call).Reply) (stored : held.Answers (f.request call) reply held')
    (told : R.Answers L (f.request call) reply) :
    Reached R L ⟨(f.proceed call reply).1, (f.proceed call reply).2, held'⟩ :=
  .step h (.reply reply stored told)

end Snapshot

namespace Fork

def rootView : View := ⟨.regtest, start.tip, ⟨start.tip, []⟩⟩

def view : View := ⟨.regtest, start.tip, ⟨left.tip, [0]⟩⟩

/-- Initialized on the first block of the game. -/
def opened : Follower :=
  ((Follower.start "g" .standard none).settled .regtest rules.initial ⟨start.tip, []⟩).1.setState
    .synced

/-- Notified of `left` after that. -/
def follower : Follower :=
  (((Follower.start "g" .standard none).settled .regtest rules.initial ⟨start.tip, []⟩).1.setState
    .synced).setCurrent ⟨left.tip, [0]⟩

theorem admits_left : ledger.Admits left.payload := Ledger.Holds.admits (b := left) rfl

theorem reached_opened :
    Snapshot.Reached rules ledger ⟨opened, .returned (.ok ()),
      Holdings.empty.commit (.withoutUndo start.tip [])⟩ := by
  have hstart : Snapshot.Reached rules ledger
      ⟨.start "g" .standard none, .returned (.ok ()), .empty⟩ := .start _ _
  have hidentify := hstart.step .initialized
  have hbegin := hidentify.reply (.identify 1)
    (.ok ⟨.regtest, start.tip⟩ : Except ChainError ChainInfo) rfl (by rintro _ ⟨⟩; rfl)
  have hresume := hbegin.reply (.begin .regtest)
    (.ok rules.initial : Except GameFailure InitialState) rfl (by rintro _ _ ⟨⟩; rfl)
  have hcreate := hresume.reply (.resume .regtest rules.initial)
    (.ok none : Except StoreError (Option StoredState)) ⟨rfl, by rintro _ ⟨⟩; rfl⟩ trivial
  have htarget := hcreate.reply (.create .regtest rules.initial)
    (.ok () : Except StoreError Unit) rfl trivial
  exact htarget.reply (.target 1)
    (.ok ⟨.regtest, start.tip⟩ : Except ChainError ChainInfo) rfl (by rintro _ ⟨⟩; rfl)

/-- The step over `left` is about to be committed. -/
theorem reached_advance :
    Snapshot.Reached rules ledger ⟨opened, .asks (.advance .notified left.header ⟨[0], []⟩),
      Holdings.empty.commit (.withoutUndo start.tip [])⟩ := by
  have hattach := reached_opened.step
    (.notified ⟨"g", .attach, left.payload, 1, false⟩ admits_left)
  exact hattach.reply
    (.apply .notified ⟨.regtest, start.tip, ⟨start.tip, []⟩⟩ left.header left.payload)
    (.ok ⟨[0], []⟩ : Except GameFailure ForwardStep) rfl (by rintro _ _ ⟨⟩; rfl)

theorem reached_left :
    Snapshot.Reached rules ledger ⟨follower, .returned (.ok ()), store.holdings⟩ := by
  have hadvance := reached_advance.reply (.advance .notified left.header ⟨[0], []⟩)
    (.ok () : Except StoreError Unit) rfl trivial
  have hheld : store.holdings = (Holdings.empty.commit (.withoutUndo start.tip [])).commit
      (.forward left.tip [0] start.header.hash []) := by
    simp [store]
  rw [hheld]
  exact hadvance

/-- The commit has failed, and nothing of it was written. -/
theorem reached_behind :
    Snapshot.Reached rules ledger ⟨opened.fail, .returned (.ok ()),
      Holdings.empty.commit (.withoutUndo start.tip [])⟩ :=
  reached_advance.reply (.advance .notified left.header ⟨[0], []⟩)
    (.error .io : Except StoreError Unit) ⟨rfl, fun _ => .inl rfl⟩ trivial

end Fork

end ChainFollower
