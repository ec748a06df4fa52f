import ChainFollower.Proofs.Sync.Walk

namespace ChainFollower

variable {R : Rules} {L : Ledger R.initial.tip} {σ : Type}

/-- Notifications that are handled one after the other, each to a good end. -/
inductive Host.Delivers (host : Host σ) (rest : Duration → σ → σ) :
    List Notification → Follower → σ → Follower → σ → Prop
  | nil (f : Follower) (s : σ) : Delivers host rest [] f s f s
  | cons {note : Notification} {notes : List Notification} {f g h : Follower} {s t u : σ} :
      host.Ends rest (f.notified note) s ((g, .returned (.ok ())), t) →
      Delivers host rest notes g t h u → Delivers host rest (note :: notes) f s h u

/-- A notification, in sequence, that this block was detached. -/
structure Notification.Detaches (note : Notification) (b : Block) : Prop where
  kind : note.kind = .detach
  mismatch : note.mismatch = false
  payload : note.payload = b.payload

/-- A notification, in sequence, that this block was attached. -/
structure Notification.Attaches (note : Notification) (b : Block) : Prop where
  kind : note.kind = .attach
  mismatch : note.mismatch = false
  payload : note.payload = b.payload

theorem Host.Delivers.append {host : Host σ} {rest : Duration → σ → σ}
    {notes more : List Notification} {f g h : Follower} {s t u : σ}
    (hd : host.Delivers rest notes f s g t) (hm : host.Delivers rest more g t h u) :
    host.Delivers rest (notes ++ more) f s h u := by
  induction hd with
  | nil f s => exact hm
  | cons hends _ ih => exact .cons hends (ih hm)

namespace Setting

variable {S : Setting R L σ} {f : Follower} {s : σ} {v : View} {bs upper lower : List Block} {b : Block}

/-- Notified of each block that is detached, a follower comes down as far as there are records. -/
theorem delivers_undone {note : Block → Notification} (rest : Duration → σ → σ)
    (hr : S.Ready f s v (upper ++ lower)) (hj : R.Journaled L (S.held s) upper)
    (hstate : f.state = .synced) (hnote : ∀ b, (note b).Detaches b) :
    ∃ g t w, S.host.Delivers rest (upper.map note) f s g t ∧ g.state = .synced ∧
      S.now s ≤ S.now t ∧ S.Ready g t w lower := by
  induction upper generalizing f s v with
  | nil => exact ⟨f, s, v, .nil f s, hstate, Nat.le_refl _, hr⟩
  | cons b below ih =>
    obtain ⟨before, t₁, hl, hr₁, hrec⟩ := leads_detached_direct hr (hj.mono rfl (by simp)) hstate
      (hnote b).mismatch (hnote b).payload
    obtain ⟨g, t, w, hd, hg, hle, hr'⟩ := ih hr₁ (hj.mono hrec (by simp_all)) hstate
    refine ⟨g, t, w, .cons ?_ hd, hg, Nat.le_trans (now_le_of_leads hl) hle, hr'⟩
    unfold Follower.notified
    rw [(hnote b).kind]
    exact hl.ends_returned rest

/-- In step, a follower takes the attaching of a block on its newest one at its word. -/
theorem leads_attached_direct {note : Notification} (hr : S.Ready f s v bs)
    (hb : S.Known (S.now s) b) (hparent : b.header.parent = (L.top bs).header.hash)
    (hstate : f.state = .synced) (hnote : note.Attaches b) :
    ∃ after t, S.host.Leads (f.notified note) s (f.setCurrent after, .returned (.ok ())) t ∧
      S.Ready (f.setCurrent after) t { v with current := after } (b :: bs) := by
  have hst := hr.keeps.stands
  have hheight := hb.holds.height hst.branch.holds_top hparent
  rw [hst.top_height] at hheight
  have hnew : b.header.hash ≠ v.current.tip.hash := by
    intro heq
    have hsame := congrArg (fun c => c.header.height.toNat) (hst.top_eq hb.holds heq)
    simp only [hst.top_height] at hsame
    omega
  have hpre : v.predates b.header = false := by
    refine Bool.eq_false_iff.mpr fun hpre => ?_
    simp only [View.predates, Bool.and_eq_true, decide_eq_true_eq] at hpre
    have hle := UInt64.le_iff_toNat_le.mp hpre.2
    rw [← hpre.1] at hle
    omega
  obtain ⟨after, t, _, hl, hr', _⟩ := leads_apply .notified hr hb (hparent.trans hst.top_hash)
  refine ⟨after, t, ?_, hr'⟩
  unfold Follower.notified
  rw [hnote.kind]
  simp only [Follower.attached, hnote.payload, L.decodes hb.holds, hr.view]
  rw [if_neg hnew, hpre, if_neg Bool.false_ne_true,
    if_pos ⟨hstate, hnote.mismatch, hparent.trans hst.top_hash⟩]
  exact hl

/-- Notified of each block that is attached, a follower comes up to the newest one. -/
theorem delivers_attached {note : Block → Notification} (rest : Duration → σ → σ)
    (hr : S.Ready f s v lower) (hb : L.Branch (upper ++ lower))
    (hknown : ∀ b ∈ upper, S.Known (S.now s) b) (hstate : f.state = .synced)
    (hnote : ∀ b, (note b).Attaches b) :
    ∃ g t w, S.host.Delivers rest (upper.reverse.map note) f s g t ∧ g.state = .synced ∧
      S.now s ≤ S.now t ∧ S.Ready g t w (upper ++ lower) := by
  induction upper with
  | nil => exact ⟨f, s, v, .nil f s, hstate, Nat.le_refl _, hr⟩
  | cons b below ih =>
    obtain ⟨g, t, w, hd, hg, hle, hr'⟩ := ih hb.2.2 fun c hc => hknown c (.tail _ hc)
    obtain ⟨after, u, hl, hr₂⟩ := leads_attached_direct hr' ((hknown b (.head _)).mono hle) hb.2.1 hg
      (hnote b)
    refine ⟨g.setCurrent after, u, _, ?_, hg, Nat.le_trans hle (now_le_of_leads hl), hr₂⟩
    rw [List.reverse_cons, List.map_append]
    exact hd.append (.cons (hl.ends_returned rest) (.nil _ _))

end Setting

end ChainFollower
