import ChainFollower.Proofs.Sync.Walk

namespace ChainFollower

namespace Setting

variable {R : Rules} {L : Ledger R.initial.tip} {σ : Type} {S : Setting R L σ} {f : Follower} {s : σ}
  {v : View} {bs : List Block}

/-- However the chain moves meanwhile, a walk is over after finitely many questions and does not panic.
Where it ends well, all blocks up to the local tip, which is at least as high as the reported one, were
canonical at one moment of the walk. Otherwise the chain has moved, the local tip is one that the walk
has committed, and any later walk on a chain that has come to rest ends well on the canonical tip. -/
theorem walk_sound_on_moving_chain (hroot : S.RootStays) (hr : S.Ready f s v bs)
    (hj : R.Journaled L (S.held s) bs) (attempt : Nat) :
    ∃ g next t w dropped kept new target,
      S.host.Leads (f, .asks (.target attempt)) s (g, next) t ∧ (∀ halt, next ≠ .halted halt) ∧
      (S.host.answer (.chain .info) s).1 = .ok ⟨R.network, target⟩ ∧
      bs = dropped ++ kept ∧ S.Ready g t w (new ++ kept) ∧
      (∀ b ∈ new, S.Seen (S.now s) (S.now t) b) ∧
      (f.pruning = none → R.Journaled L (S.held t) (new ++ kept)) ∧
      ((next = .returned (.ok ()) ∧ g.state = .synced ∧ target.height ≤ w.current.tip.height ∧
          ∃ m, S.now s ≤ m ∧ m ≤ S.now t ∧
            ∀ b ∈ new ++ kept ++ [L.first], b ∈ (S.chain m).blocks) ∨
        (∃ h e, (g, next) = Follower.walkFailed h attempt (.chain e)) ∧
          S.Moved (S.now s) (S.now t) ∧
          ∀ u, S.now t ≤ S.now u → S.held u = S.held t → S.Rests u →
            R.Journaled L (S.held u) (new ++ kept) → ∀ again rest, ∃ g' u' w' cs,
              S.host.Ends rest (g, .asks (.target again)) u ((g', .returned (.ok ())), u') ∧
              g'.state = .synced ∧ S.Ready g' u' w' cs ∧
              w'.current.tip = (S.chain (S.now u)).tip.tip) := by
  obtain ⟨⟨g, next⟩, t, w, dropped, kept, new, target, rfl, hl, hinfo, hc⟩ :=
    leads_walk hroot attempt hr hj
  have hkept : R.Journaled L (S.held s) kept := hj.mono rfl (by simp_all)
  refine ⟨g, next, t, w, dropped, kept, new, target, hl, ?_, hinfo, rfl, hc.ready, hc.seen,
    fun hp => hc.journaled hp hkept, ?_⟩
  · intro halt hn
    rcases hc.outcome with ⟨hnext, _⟩ | ⟨⟨h, e, heq⟩, _⟩
    · simp [hn] at hnext
    · have hfailed : next = (h.walkFailed attempt (.chain e)).2 := congrArg Prod.snd heq
      exact h.walkFailed_ne_halted attempt _ (hfailed.symm.trans hn)
  · rcases hc.outcome with ⟨hnext, hstate, hheight, hseen⟩ | ⟨hfailed, hmoved⟩
    · exact .inl ⟨hnext, hstate, hheight, hroot.branch_mem hc.ready.keeps.stands.branch hseen⟩
    · refine .inr ⟨hfailed, hmoved, ?_⟩
      intro u hle hheld hrests hju again rest
      obtain ⟨g', u', w', cs, hl', hstate, hr', htip, _⟩ :=
        leads_walk_of_rests hroot hrests again (hc.ready.congr hle hheld) hju
      exact ⟨g', u', w', cs, hl'.ends_returned rest, hstate, hr', htip⟩

/-- The chain moves over to the right branch once it has reported the end of the left one. -/
theorem walk_sound_on_moving_chain_fork :
    let S := Fork.setting (fun n => if n ≤ 1 then Fork.toLeftEnd else Fork.toRightEnd) (· + 1)
      Nat.le_succ
    S.RootStays ∧ S.Ready Fork.follower (Fork.store, 0) Fork.view [Fork.left] ∧
    Fork.rules.Journaled Fork.ledger (S.held (Fork.store, 0)) [Fork.left] ∧
    ∃ g next t w bs target,
      S.host.Leads (Fork.follower, .asks (.target 1)) (Fork.store, 0) (g, next) t ∧
      (∀ halt, next ≠ .halted halt) ∧ target = Fork.leftEnd.tip ∧ S.Ready g t w bs ∧
      ((next = .returned (.ok ()) ∧ target.height ≤ w.current.tip.height) ∨
        ∃ h e, (g, next) = Follower.walkFailed h 1 (.chain e)) := by
  intro S
  have hroot : S.RootStays := by
    intro n
    by_cases hn : n ≤ 1
    · simp [S, Fork.setting, moving, hn, Fork.toLeftEnd, Fork.toLeft, Fork.toStart,
        Ledger.Chain.attach, Ledger.Chain.blocks, Fork.ledger, Ledger.ofList]
    · simp [S, Fork.setting, moving, hn, Fork.toRightEnd, Fork.toRight, Fork.toStart,
        Ledger.Chain.attach, Ledger.Chain.blocks, Fork.ledger, Ledger.ofList]
  have hready : S.Ready Fork.follower (Fork.store, 0) Fork.view [Fork.left] :=
    Fork.ready_left ⟨0, Nat.le_refl _, .tail _ (.head _)⟩
  refine ⟨hroot, hready, Fork.journaled_left, ?_⟩
  obtain ⟨g, next, t, w, dropped, kept, new, target, hl, hne, hinfo, _, hr, _, _, hend⟩ :=
    walk_sound_on_moving_chain hroot hready Fork.journaled_left 1
  refine ⟨g, next, t, w, _, target, hl, hne, ?_, hr, ?_⟩
  · exact (congrArg ChainInfo.tip (Except.ok.inj hinfo)).symm
  · rcases hend with ⟨hnext, _, hheight, _⟩ | ⟨hfailed, _⟩
    · exact .inl ⟨hnext, hheight⟩
    · exact .inr hfailed

end Setting

end ChainFollower
