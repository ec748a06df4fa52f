import ChainFollower.Proofs.Sync.Walk

namespace ChainFollower

variable {R : Rules} {L : Ledger R.initial.tip} {σ : Type}

namespace Follower

variable {f : Follower} {v : View} {note : Notification} {header : Header}

/-- Out of step, a follower walks, unless it is told of its own tip, or of blocks up to the first one
while it is there. -/
theorem notified_eq_target (hv : f.view = some v) (hstate : f.state ≠ .synced)
    (hheader : payloadHeader note.payload = .ok header) (hpre : v.predates header = false)
    (hnew : note.kind = .attach → header.hash ≠ v.current.tip.hash) :
    f.notified note = (f, .asks (.target 1)) := by
  unfold notified
  cases hkind : note.kind with
  | attach => simp [attached, hheader, hv, hnew hkind, hpre, hstate]
  | detach => simp [detached, hheader, hv, hpre, hstate]

theorem attached_eq_of_tip (hv : f.view = some v) (hkind : note.kind = .attach)
    (hheader : payloadHeader note.payload = .ok header) (hsame : header.hash = v.current.tip.hash) :
    f.notified note = (f, .returned (.ok ())) := by
  unfold notified
  rw [hkind]
  simp [attached, hheader, hv, hsame]

theorem notified_eq_of_predates (hv : f.view = some v)
    (hheader : payloadHeader note.payload = .ok header) (hpre : v.predates header = true) :
    f.notified note = (f, .returned (.ok ())) := by
  unfold notified
  cases hkind : note.kind with
  | attach => simp [attached, hheader, hv, hpre]
  | detach => simp [detached, hheader, hv, hpre]

end Follower

namespace Snapshot

/-- A follower that has fallen out of step, with all that a walk to the canonical tip needs: the chain
has come to rest with the first block of the game on it, and for the blocks of the local branch that
have left it there are records, and they are still served. -/
structure Behind (S : Setting R L σ) (f : Follower) (s : σ) (v : View) (bs : List Block) : Prop where
  reached : ∃ result, Reached R L ⟨f, .returned result, S.held s⟩
  view : f.view = some v
  state : f.state ≠ .synced
  branch : L.Branch bs
  tip_eq : (L.top bs).tip = v.current.tip
  root : L.first ∈ (S.chain (S.now s)).blocks
  rests : S.Rests s
  stale : ∀ b ∈ bs, b ∉ (S.chain (S.now s)).blocks →
    S.Known (S.now s) b ∧ ∃ record, (S.held s).record b.tip = some record

variable {S : Setting R L σ} {f : Follower} {s : σ} {v : View} {bs : List Block}
  {note : Notification} {header : Header}

/-- One notification that is not ignored brings the follower back in step, on the canonical tip. -/
theorem notified_recovers (h : Behind S f s v bs)
    (hheader : payloadHeader note.payload = .ok header) (hpre : v.predates header = false)
    (hnew : note.kind = .attach → header.hash ≠ v.current.tip.hash) (rest : Duration → σ → σ) :
    ∃ g t w cs, S.host.Ends rest (f.notified note) s ((g, .returned (.ok ())), t) ∧
      g.state = .synced ∧ g.view = some w ∧ (S.held t).current = some w.current ∧
      w.current.tip = (S.chain (S.now s)).tip.tip ∧ L.Branch cs ∧
      (L.top cs).tip = w.current.tip ∧ R.replay cs = some w.current.state := by
  obtain ⟨upper, lower, rfl, hout, hfork⟩ := Ledger.Chain.exists_fork h.root bs
  obtain ⟨result, hreached⟩ := h.reached
  have hknown : ∀ b ∈ upper ++ lower, S.Known (S.now s) b := by
    intro b hb
    by_cases hmem : b ∈ (S.chain (S.now s)).blocks
    · exact ⟨S.now s, Nat.le_refl _, hmem⟩
    · exact (h.stale b hb hmem).1
  have hst := hreached.stands_of_branch h.view h.branch h.tip_eq
  have hr := hreached.ready h.view hst hknown
  have hj : R.Journaled L (S.held s) upper :=
    hreached.journaled fun b hb => (h.stale b (List.mem_append_left _ hb) (hout b hb)).2
  obtain ⟨g, t, w, cs, hl, hg, hr', htip, _⟩ :=
    Setting.leads_walk_of_rests_append h.rests hfork 1 hr hj
  rw [Follower.notified_eq_target h.view h.state hheader hpre hnew]
  have hst' := hr'.keeps.stands
  exact ⟨g, t, w, cs, hl.ends_returned rest, hg, hr'.view, hr'.keeps.current, htip, hst'.branch,
    hst'.tip_eq, hst'.replay_eq⟩

end Snapshot

namespace Fork

/-- The record of `left` could not be read. -/
theorem reached_undo_failed :
    Snapshot.Reached rules ledger ⟨follower.fail, .returned (.ok ()), store.holdings⟩ := by
  have hdetach := reached_left.step (.notified ⟨"g", .detach, left.payload, 2, false⟩ admits_left)
  exact hdetach.reply (.lookup .notified view left.payload)
    (.error .io : Except StoreError (Option UndoRecord)) ⟨rfl, by rintro _ ⟨⟩⟩ trivial

/-- The chain has gone over to the right branch. -/
def switched : Setting rules ledger (MemoryStore × Nat) :=
  setting (fun n => if n = 0 then toLeft else toRightEnd) id Nat.le_refl

theorem behind_switched : Snapshot.Behind switched follower.fail (store, 1) view [left] where
  reached := ⟨_, reached_undo_failed⟩
  view := rfl
  state := by decide
  branch := ⟨rfl, rfl, trivial⟩
  tip_eq := rfl
  root := .tail _ (.tail _ (.head _))
  rests := still_setting.rests _
  stale := by
    intro b hb _
    rw [List.mem_singleton.mp hb]
    exact ⟨⟨0, Nat.zero_le 1, .head _⟩, _, rfl⟩

/-- The chain has gone on over `left`. -/
def extended : Setting rules ledger (MemoryStore × Nat) :=
  setting (fun _ => toLeftEnd) id Nat.le_refl

theorem behind_left : Snapshot.Behind extended follower.fail (store, 0) view [left] where
  reached := ⟨_, reached_undo_failed⟩
  view := rfl
  state := by decide
  branch := ⟨rfl, rfl, trivial⟩
  tip_eq := rfl
  root := .tail _ (.tail _ (.head _))
  rests := still_setting.rests _
  stale := by
    intro b hb hout
    rw [List.mem_singleton.mp hb] at hout
    exact absurd (.tail _ (.head _)) hout

theorem behind_root : Snapshot.Behind extended opened.fail (rootStore, 0) rootView [] where
  reached := ⟨_, reached_behind⟩
  view := rfl
  state := by decide
  branch := trivial
  tip_eq := rfl
  root := .tail _ (.tail _ (.head _))
  rests := still_setting.rests _
  stale := by simp

end Fork

namespace Snapshot

theorem notified_recovers_fork :
    let note : Notification := ⟨"g", .attach, Fork.rightEnd.payload, 3, false⟩
    ∃ g t w, Fork.switched.host.Ends (fun _ s => s) (Fork.follower.fail.notified note) (Fork.store, 1)
        ((g, .returned (.ok ())), t) ∧
      g.state = .synced ∧ g.view = some w ∧ w.current.tip = Fork.rightEnd.tip := by
  intro note
  have hheader : payloadHeader note.payload = .ok Fork.rightEnd.header := rfl
  obtain ⟨g, t, w, _, hends, hg, hw, _, htip, _⟩ :=
    notified_recovers Fork.behind_switched hheader (by decide) (by decide) fun _ s => s
  exact ⟨g, t, w, hends, hg, hw, htip⟩

/-- Told of its own tip again, or of a block below the first one, a follower stays out of step. -/
theorem notified_stays_behind :
    let own : Notification := ⟨"g", .attach, Fork.left.payload, 3, false⟩
    let lower : Notification := ⟨"g", .attach, Fork.genesis.payload, 3, false⟩
    (Behind Fork.extended Fork.follower.fail (Fork.store, 0) Fork.view [Fork.left] ∧
      payloadHeader own.payload = .ok Fork.left.header ∧
      ¬∃ g t result, g.state = .synced ∧ Fork.extended.host.Ends (fun _ s => s)
        (Fork.follower.fail.notified own) (Fork.store, 0) ((g, .returned result), t)) ∧
    Behind Fork.extended Fork.opened.fail (Fork.rootStore, 0) Fork.rootView [] ∧
      payloadHeader lower.payload = .ok Fork.genesis.header ∧
      ¬∃ g t result, g.state = .synced ∧ Fork.extended.host.Ends (fun _ s => s)
        (Fork.opened.fail.notified lower) (Fork.rootStore, 0) ((g, .returned result), t) := by
  intro own lower
  refine ⟨⟨Fork.behind_left, rfl, ?_⟩, Fork.behind_root, rfl, ?_⟩
  · rintro ⟨g, t, result, hstate, hends⟩
    rw [Follower.attached_eq_of_tip Fork.behind_left.view rfl rfl rfl] at hends
    cases hends.unique ((Host.Leads.refl _ _).ends_returned _)
    exact Fork.behind_left.state hstate
  · rintro ⟨g, t, result, hstate, hends⟩
    have hpre : Fork.rootView.predates Fork.genesis.header = true := by decide
    rw [Follower.notified_eq_of_predates Fork.behind_root.view rfl hpre] at hends
    cases hends.unique ((Host.Leads.refl _ _).ends_returned _)
    exact Fork.behind_root.state hstate

end Snapshot

end ChainFollower
