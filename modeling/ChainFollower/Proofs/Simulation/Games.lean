import ChainFollower.Proofs.Game.Registry
import ChainFollower.Proofs.Game.Transparency
import ChainFollower.Proofs.Journal
import ChainFollower.Simulation

namespace ChainFollower

/-- A store that never fails and holds what is committed to it. -/
structure Store.Keeps {σ : Type} (store : Store σ) (held : σ → Holdings) : Prop where
  load (s : σ) : (store.load s).1 = .ok (held s).current ∧ held (store.load s).2 = held s
  commit (c : Commit) (s : σ) :
    (store.commit c s).1 = .ok () ∧ held (store.commit c s).2 = (held s).commit c
  undo (tip : Tip) (s : σ) :
    (store.undo tip s).1 = .ok ((held s).record tip) ∧ held (store.undo tip s).2 = held s
  prune (height : UInt64) (s : σ) :
    (∃ count, (store.prune height s).1 = .ok count) ∧
      held (store.prune height s).2 = (held s).dropBelow height

theorem MemoryStore.keeps : MemoryStore.store.Keeps MemoryStore.holdings where
  load _ := ⟨rfl, rfl⟩
  commit c s := ⟨rfl, holdings_commit c s⟩
  undo _ _ := ⟨rfl, rfl⟩
  prune height s := ⟨⟨_, rfl⟩, holdings_dropBelow height s⟩

namespace Simulation

/-- A store for each game. -/
structure Stores (ν τ : Type) where
  names : Store ν
  tally : Store τ
  namesHeld : ν → Holdings
  tallyHeld : τ → Holdings
  namesKeeps : names.Keeps namesHeld
  tallyKeeps : tally.Keeps tallyHeld

def Stores.memory : Stores MemoryStore MemoryStore :=
  ⟨MemoryStore.store, MemoryStore.store, MemoryStore.holdings, MemoryStore.holdings, MemoryStore.keeps,
    MemoryStore.keeps⟩

inductive Side
  | names
  | tally
  deriving DecidableEq

namespace Side

def id : Side → String
  | names => Registry.id
  | tally => Tally.id

/-- What a state after so many blocks can look like. -/
def Valid : Side → Nat → Bytes → Prop
  | names, _, state => ∃ t : Registry.Table, state = t.encode
  | tally, blocks, state => state.length = 4 * blocks

def Undoable : Side → Bytes → Prop
  | names, undo => ∃ u : Registry.Undo, undo = Registry.Undo.encode u
  | tally, _ => True

end Side

variable {ν τ : Type} {S : Stores ν τ} {side : Side} {w w' : World ν τ}

namespace Stores

def host (S : Stores ν τ) : Side → Host (World ν τ)
  | .names => ⟨source, S.names.lift World.names fun names w => { w with names }, Registry.game genesis⟩
  | .tally => ⟨source, S.tally.lift World.tally fun tally w => { w with tally },
      (Tally.game genesis).lift World.buffer fun buffer w => { w with buffer }⟩

def held (S : Stores ν τ) : Side → World ν τ → Holdings
  | .names, w => S.namesHeld w.names
  | .tally, w => S.tallyHeld w.tally

end Stores

/-- Chain, bus, time and the other game's store are as they were, and no buffer is too large. -/
structure Apart (S : Stores ν τ) (side : Side) (w w' : World ν τ) : Prop where
  chain : w'.chain = w.chain
  bus : w'.bus = w.bus
  now : w'.now = w.now
  held : ∀ other, other ≠ side → S.held other w' = S.held other w
  size : w.buffer.size ≤ Buffered.maxSize → w'.buffer.size ≤ Buffered.maxSize

theorem Apart.refl (S : Stores ν τ) (side : Side) (w : World ν τ) : Apart S side w w :=
  ⟨rfl, rfl, rfl, fun _ _ => rfl, id⟩

theorem Apart.trans {w'' : World ν τ} (h : Apart S side w w') (h' : Apart S side w' w'') :
    Apart S side w w'' :=
  ⟨h'.chain.trans h.chain, h'.bus.trans h.bus, h'.now.trans h.now,
    fun other hne => (h'.held other hne).trans (h.held other hne), fun hsize => h'.size (h.size hsize)⟩

theorem apart_names (w : World ν τ) (names : ν) : Apart S .names w { w with names } where
  chain := rfl
  bus := rfl
  now := rfl
  held other hne := by
    cases other with
    | names => exact absurd rfl hne
    | tally => rfl
  size := id

theorem apart_tally (w : World ν τ) (tally : τ) : Apart S .tally w { w with tally } where
  chain := rfl
  bus := rfl
  now := rfl
  held other hne := by
    cases other with
    | names => rfl
    | tally => exact absurd rfl hne
  size := id

theorem apart_buffer {size : Nat} (hsize : size ≤ Buffered.maxSize) :
    Apart S .tally w { w with buffer := ⟨(), size⟩ } where
  chain := rfl
  bus := rfl
  now := rfl
  held other _ := by cases other <;> rfl
  size _ := hsize

namespace Stores

theorem answer_chain (S : Stores ν τ) (side : Side) (q : Query) (w : World ν τ) :
    (S.host side).answer (.chain q) w = (w.chain.answer q, w) := by
  cases side <;> rfl

theorem answer_load (S : Stores ν τ) (side : Side) (w : World ν τ) :
    ∃ w', (S.host side).answer .load w = (.ok (S.held side w).current, w') ∧ Apart S side w w' ∧
      S.held side w' = S.held side w := by
  cases side with
  | names =>
    obtain ⟨hreply, hheld⟩ := S.namesKeeps.load w.names
    exact ⟨_, congrArg (·, _) hreply, apart_names w _, hheld⟩
  | tally =>
    obtain ⟨hreply, hheld⟩ := S.tallyKeeps.load w.tally
    exact ⟨_, congrArg (·, _) hreply, apart_tally w _, hheld⟩

theorem answer_commit (S : Stores ν τ) (side : Side) (c : Commit) (w : World ν τ) :
    ∃ w', (S.host side).answer (.commit c) w = (.ok (), w') ∧ Apart S side w w' ∧
      S.held side w' = (S.held side w).commit c := by
  cases side with
  | names =>
    obtain ⟨hreply, hheld⟩ := S.namesKeeps.commit c w.names
    exact ⟨_, congrArg (·, _) hreply, apart_names w _, hheld⟩
  | tally =>
    obtain ⟨hreply, hheld⟩ := S.tallyKeeps.commit c w.tally
    exact ⟨_, congrArg (·, _) hreply, apart_tally w _, hheld⟩

theorem answer_undo (S : Stores ν τ) (side : Side) (tip : Tip) (w : World ν τ) :
    ∃ w', (S.host side).answer (.undo tip) w = (.ok ((S.held side w).record tip), w') ∧
      Apart S side w w' ∧ S.held side w' = S.held side w := by
  cases side with
  | names =>
    obtain ⟨hreply, hheld⟩ := S.namesKeeps.undo tip w.names
    exact ⟨_, congrArg (·, _) hreply, apart_names w _, hheld⟩
  | tally =>
    obtain ⟨hreply, hheld⟩ := S.tallyKeeps.undo tip w.tally
    exact ⟨_, congrArg (·, _) hreply, apart_tally w _, hheld⟩

theorem answer_prune (S : Stores ν τ) (side : Side) (height : UInt64) (w : World ν τ) :
    ∃ count w', (S.host side).answer (.prune height) w = (.ok count, w') ∧ Apart S side w w' ∧
      S.held side w' = (S.held side w).dropBelow height := by
  cases side with
  | names =>
    obtain ⟨⟨count, hreply⟩, hheld⟩ := S.namesKeeps.prune height w.names
    exact ⟨count, _, congrArg (·, _) hreply, apart_names w _, hheld⟩
  | tally =>
    obtain ⟨⟨count, hreply⟩, hheld⟩ := S.tallyKeeps.prune height w.tally
    exact ⟨count, _, congrArg (·, _) hreply, apart_tally w _, hheld⟩

theorem answer_initial (S : Stores ν τ) (side : Side) (network : Network)
    (hsize : w.buffer.size ≤ Buffered.maxSize) :
    ∃ state w', (S.host side).answer (.initial network) w =
        (.ok ⟨state, genesis.height, genesis.hash⟩, w') ∧ Apart S side w w' ∧
      S.held side w' = S.held side w ∧ side.Valid 0 state := by
  cases side with
  | names => exact ⟨_, w, rfl, .refl S _ w, rfl, [], rfl⟩
  | tally =>
    obtain ⟨size, hle, hreply⟩ := Tally.initial_eq genesis network hsize
    refine ⟨[], { w with buffer := ⟨(), size⟩ }, ?_, apart_buffer hle, rfl, rfl⟩
    change within World.buffer (fun buffer w => { w with buffer })
      ((Tally.game genesis).initial network) w = _
    rw [within, hreply]
    rfl

/-- No block is refused on a valid state. -/
theorem answer_forward (S : Stores ν τ) (side : Side) (network : Network) {state : Bytes} (block : Json)
    {height : Nat} (hsize : w.buffer.size ≤ Buffered.maxSize) (hstate : side.Valid height state)
    (hheight : height < 2 ^ 60) :
    ∃ step w', (S.host side).answer (.forward network state block) w = (.ok step, w') ∧
      Apart S side w w' ∧ S.held side w' = S.held side w ∧ side.Valid (height + 1) step.state ∧
      side.Undoable step.undo := by
  cases side with
  | names =>
    obtain ⟨t, rfl⟩ := hstate
    obtain ⟨t', u, hforward⟩ := Registry.forward_encode t block
    refine ⟨⟨t'.encode, Registry.Undo.encode u⟩, w, ?_, .refl S _ w, rfl, ⟨t', rfl⟩, u, rfl⟩
    change ((Registry.forward t.encode block).mapError GameFailure.refused, w) = _
    rw [hforward]
    rfl
  | tally =>
    change state.length = 4 * height at hstate
    obtain ⟨size, hle, hreply⟩ := Tally.forward_eq genesis network block hsize
      (show state.length + 4 ≤ 2 ^ 62 by omega)
    refine ⟨⟨state ++ Bytes.ofUInt32 (Tally.moveCount block.text), []⟩, { w with buffer := ⟨(), size⟩ }, ?_,
      apart_buffer hle, rfl, ?_, trivial⟩
    · change within World.buffer (fun buffer w => { w with buffer })
        ((Tally.game genesis).forward network state block) w = _
      rw [within, hreply]
      rfl
    · change (state ++ Bytes.ofUInt32 (Tally.moveCount block.text)).length = 4 * (height + 1)
      rw [Tally.length_next]
      omega

/-- No valid undo data is refused. -/
theorem answer_backward (S : Stores ν τ) (side : Side) (network : Network) {state : Bytes} (block : Json)
    {undo : Bytes} {height : Nat} (hsize : w.buffer.size ≤ Buffered.maxSize)
    (hstate : side.Valid (height + 1) state) (hundo : side.Undoable undo) (hheight : height < 2 ^ 60) :
    ∃ before w', (S.host side).answer (.backward network state block undo) w = (.ok before, w') ∧
      Apart S side w w' ∧ S.held side w' = S.held side w ∧ side.Valid height before := by
  cases side with
  | names =>
    obtain ⟨t, rfl⟩ := hstate
    obtain ⟨u, rfl⟩ := hundo
    obtain ⟨t', hbackward⟩ := Registry.backward_encode t u
    refine ⟨_, w, ?_, .refl S _ w, rfl, t', rfl⟩
    change ((Registry.backward t.encode (Registry.Undo.encode u)).mapError GameFailure.refused, w) = _
    rw [hbackward]
    rfl
  | tally =>
    change state.length = 4 * (height + 1) at hstate
    obtain ⟨size, hle, hreply⟩ := Tally.backward_eq genesis network block undo hsize
      (show state.length ≤ 2 ^ 62 by omega)
    refine ⟨state.take (state.length - 4), { w with buffer := ⟨(), size⟩ }, ?_, apart_buffer hle, rfl, ?_⟩
    · change within World.buffer (fun buffer w => { w with buffer })
        ((Tally.game genesis).backward network state block undo) w = _
      rw [within, hreply]
      rfl
    · change (state.take (state.length - 4)).length = 4 * height
      rw [List.length_take]
      omega

end Stores

end Simulation

end ChainFollower
