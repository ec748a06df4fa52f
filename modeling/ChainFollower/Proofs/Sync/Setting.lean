import ChainFollower.Proofs.Sync.Exchange
import ChainFollower.Proofs.Sync.Soundness

namespace ChainFollower

variable {R : Rules} {L : Ledger R.initial.tip} {σ : Type}

/-- What chain, store and game reply when none of them fails. After `now` changes of the chain, the
tip and the hashes are those of the moment, and all blocks that were canonical so far are served. -/
def Rules.Replies (R : Rules) (L : Ledger R.initial.tip) (chain : Nat → L.Chain) (now : Nat)
    (held held' : Holdings) : (r : Request) → r.Reply → Prop
  | .chain .info, reply => reply = .ok ⟨R.network, (chain now).tip.tip⟩ ∧ held' = held
  | .chain (.hashAt height), reply => reply = .ok ((chain now).hashAt height) ∧ held' = held
  | .chain (.block game hash), reply =>
    (game = R.game → ∀ m ≤ now, ∀ b ∈ (chain m).blocks, b.header.hash = hash →
      reply = .ok b.payload) ∧ held' = held
  | .load, reply => reply = .ok held.current ∧ held' = held
  | .commit c, reply => reply = .ok () ∧ held' = held.commit c
  | .undo tip, reply => reply = .ok (held.record tip) ∧ held' = held
  | .prune height, _ => held' = held.dropBelow height
  | .initial network, reply => (network = R.network → reply = .ok R.initial) ∧ held' = held
  | .forward network state block, reply =>
    (network = R.network → ∃ step, R.forward state block = some step ∧ reply = .ok step) ∧
      held' = held
  | .backward network state block undo, reply =>
    (network = R.network → ∀ before, R.backward state block undo = some before →
      reply = .ok before) ∧ held' = held

/-- Such a host, in whose states the changes of the chain are counted. -/
structure Setting (R : Rules) (L : Ledger R.initial.tip) (σ : Type) where
  host : Host σ
  /-- The canonical chain after each of its changes. -/
  chain : Nat → L.Chain
  now : σ → Nat
  held : σ → Holdings
  now_le (r : Request) (s : σ) : now s ≤ now (host.answer r s).2
  replies (r : Request) (s : σ) :
    R.Replies L chain (now (host.answer r s).2) (held s) (held (host.answer r s).2) r
      (host.answer r s).1

namespace Setting

variable {S : Setting R L σ} {f g : Follower} {s t u : σ} {v w : View} {bs : List Block} {b : Block}

/-- The block is on the chain after the `n`th change, or it was at some time before. -/
def Known (S : Setting R L σ) (n : Nat) (b : Block) : Prop := ∃ m ≤ n, b ∈ (S.chain m).blocks

/-- The block where the game starts never leaves the chain. -/
def RootStays (S : Setting R L σ) : Prop := ∀ n, L.first ∈ (S.chain n).blocks

/-- From here on, the chain does not change any more. -/
def Rests (S : Setting R L σ) (s : σ) : Prop := ∀ t, S.host.Later s t → S.now t = S.now s

/-- The chain does not change while it is asked. -/
def Still (S : Setting R L σ) : Prop := ∀ r s, S.now (S.host.answer r s).2 = S.now s

/-- The store keeps the state after blocks that were all canonical at some time. -/
structure Keeps (S : Setting R L σ) (s : σ) (st : StoredState) (bs : List Block) : Prop where
  current : (S.held s).current = some st
  stands : R.Stands L bs st
  known : ∀ b ∈ bs, S.Known (S.now s) b

/-- A follower that sees what its store keeps. -/
structure Ready (S : Setting R L σ) (f : Follower) (s : σ) (v : View) (bs : List Block) : Prop where
  game : f.game = R.game
  view : f.view = some v
  network : v.network = R.network
  initial : v.initial = R.initial.tip
  keeps : S.Keeps s v.current bs

theorem now_le_of_later (h : S.host.Later s t) : S.now s ≤ S.now t := by
  induction h with
  | refl s => exact Nat.le_refl _
  | answered r _ ih => exact Nat.le_trans (S.now_le r _) ih

theorem now_le_of_leads {p q : Follower × Follower.Next} (h : S.host.Leads p s q t) :
    S.now s ≤ S.now t :=
  now_le_of_later h.later

theorem Still.rests (h : S.Still) (s : σ) : S.Rests s := by
  intro t hl
  induction hl with
  | refl s => rfl
  | answered r _ ih => rw [ih, h r _]

theorem Known.mono {m n : Nat} (h : S.Known m b) (hle : m ≤ n) : S.Known n b := by
  obtain ⟨k, hk, hb⟩ := h
  exact ⟨k, Nat.le_trans hk hle, hb⟩

theorem Known.holds {n : Nat} (h : S.Known n b) : L.Holds b := by
  obtain ⟨k, _, hb⟩ := h
  exact (S.chain k).linked.holds hb

theorem Keeps.congr {st : StoredState} (h : S.Keeps s st bs) (hle : S.now s ≤ S.now t)
    (hheld : S.held t = S.held s) : S.Keeps t st bs :=
  ⟨by rw [hheld]; exact h.current, h.stands, fun b hb => (h.known b hb).mono hle⟩

theorem Ready.congr (h : S.Ready f s v bs) (hle : S.now s ≤ S.now t)
    (hheld : S.held t = S.held s) : S.Ready f t v bs :=
  { h with keeps := h.keeps.congr hle hheld }

theorem Ready.alike (h : S.Ready f s v bs) (ha : f.Alike g) : S.Ready g s v bs :=
  { h with game := ha.game.trans h.game, view := ha.view.trans h.view }

theorem exists_answer (S : Setting R L σ) (r : Request) (s : σ) :
    ∃ reply t, S.host.answer r s = (reply, t) ∧
      R.Replies L S.chain (S.now t) (S.held s) (S.held t) r reply :=
  ⟨_, _, rfl, S.replies r s⟩

theorem leads_identify (S : Setting R L σ) (f : Follower) (attempt : Nat) (s : σ) :
    ∃ t, S.host.Leads (f, .asks (.identify attempt)) s (f, .asks (.begin R.network)) t ∧
      S.held t = S.held s := by
  obtain ⟨reply, t, ha, rfl, hk⟩ := S.exists_answer (.chain .info) s
  exact ⟨t, .of_answer f (.identify attempt) ha, hk⟩

theorem leads_begin (S : Setting R L σ) (f : Follower) (s : σ) :
    ∃ t, S.host.Leads (f, .asks (.begin R.network)) s (f, .asks (.resume R.network R.initial)) t ∧
      S.held t = S.held s := by
  obtain ⟨reply, t, ha, hreply, hk⟩ := S.exists_answer (.initial R.network) s
  obtain rfl := hreply rfl
  exact ⟨t, .of_answer f (.begin R.network) ha, hk⟩

theorem leads_resume_some (S : Setting R L σ) (f : Follower) {st : StoredState}
    (h : (S.held s).current = some st) :
    ∃ t, S.host.Leads (f, .asks (.resume R.network R.initial)) s
        (f.settled R.network R.initial st) t ∧
      S.held t = S.held s := by
  obtain ⟨reply, t, ha, rfl, hk⟩ := S.exists_answer .load s
  rw [h] at ha
  exact ⟨t, .of_answer f (.resume R.network R.initial) ha, hk⟩

/-- Without a stored state, the initial one is stored. -/
theorem leads_resume_none (S : Setting R L σ) (f : Follower) (h : (S.held s).current = none) :
    ∃ t, S.host.Leads (f, .asks (.resume R.network R.initial)) s
        (f.settled R.network R.initial ⟨R.initial.tip, R.initial.state⟩) t ∧
      S.held t = (S.held s).commit (.withoutUndo R.initial.tip R.initial.state) := by
  obtain ⟨reply, t, ha, rfl, hk⟩ := S.exists_answer .load s
  obtain ⟨reply', u, ha', rfl, hk'⟩ :=
    S.exists_answer (.commit (.withoutUndo R.initial.tip R.initial.state)) t
  rw [h] at ha
  have hload : S.host.Leads (f, .asks (.resume R.network R.initial)) s
      (f, .asks (.create R.network R.initial)) t := .of_answer f (.resume R.network R.initial) ha
  refine ⟨u, hload.trans (.of_answer f (.create R.network R.initial) ha'), ?_⟩
  rw [hk', hk]

theorem leads_target (S : Setting R L σ) (f : Follower) (attempt : Nat) (s : σ) :
    ∃ t, S.host.Leads (f, .asks (.target attempt)) s
        (f.targetKnown attempt (S.chain (S.now t)).tip.tip) t ∧
      S.held t = S.held s ∧
      (S.host.answer (.chain .info) s).1 = .ok ⟨R.network, (S.chain (S.now t)).tip.tip⟩ := by
  obtain ⟨reply, t, ha, rfl, hk⟩ := S.exists_answer (.chain .info) s
  exact ⟨t, .of_answer f (.target attempt) ha, hk, congrArg Prod.fst ha⟩

theorem leads_compare (S : Setting R L σ) (f : Follower) (attempt : Nat) (target tip : Tip)
    (s : σ) :
    ∃ t, S.host.Leads (f, .asks (.compare attempt target tip)) s
        (f.compared attempt target tip ((S.chain (S.now t)).hashAt tip.height)) t ∧
      S.held t = S.held s := by
  obtain ⟨reply, t, ha, rfl, hk⟩ := S.exists_answer (.chain (.hashAt tip.height)) s
  exact ⟨t, .of_answer f (.compare attempt target tip) ha, hk⟩

/-- The block of the local tip is still served. -/
theorem leads_fetchStale (attempt : Nat) (target : Tip) (hr : S.Ready f s v bs)
    (hb : S.Known (S.now s) b) (htip : b.tip = v.current.tip) :
    ∃ t, S.host.Leads (f, .asks (.fetchStale attempt target v.current.tip)) s
        (f, .asks (.lookup (.walk attempt target) v b.payload)) t ∧
      S.held t = S.held s := by
  obtain ⟨reply, t, ha, hreply, hk⟩ := S.exists_answer (.chain (.block f.game b.tip.hash)) s
  have hl := Host.Leads.of_answer f (.fetchStale attempt target b.tip) ha
  obtain ⟨m, hm, hmem⟩ := hb.mono (now_le_of_leads hl)
  obtain rfl := hreply hr.game m hm b hmem rfl
  have hcheck : Follower.checkBlock b.tip b.payload = .ok b.header :=
    Follower.checkBlock_of_tip (L.decodes hb.holds) rfl
  have hfound : f.staleFetched attempt target b.tip b.payload =
      (f, .asks (.lookup (.walk attempt target) v b.payload)) := by
    simp [Follower.staleFetched, hcheck, hr.view]
  refine ⟨t, ?_, hk⟩
  rw [← htip, ← hfound]
  exact hl

theorem leads_next (S : Setting R L σ) (f : Follower) (attempt : Nat) (target tip : Tip) (s : σ) :
    ∃ t, S.host.Leads (f, .asks (.next attempt target tip)) s
        (f.nextKnown attempt target tip ((S.chain (S.now t)).hashAt (tip.height + 1))) t ∧
      S.held t = S.held s := by
  obtain ⟨reply, t, ha, rfl, hk⟩ := S.exists_answer (.chain (.hashAt (tip.height + 1))) s
  exact ⟨t, .of_answer f (.next attempt target tip) ha, hk⟩

/-- The block above is still served. It is applied only if it lies on the local tip. -/
theorem leads_fetchNext (attempt : Nat) (target : Tip) (hr : S.Ready f s v bs)
    (hb : S.Known (S.now s) b) :
    ∃ t, S.host.Leads (f, .asks (.fetchNext attempt target v.current.tip b.tip)) s
        (if b.header.parent = v.current.tip.hash then
          (f, .asks (.apply (.walk attempt target) v b.header b.payload))
        else f.walkFailed attempt (.chain (.notExtending b.tip v.current.tip))) t ∧
      S.held t = S.held s := by
  obtain ⟨reply, t, ha, hreply, hk⟩ := S.exists_answer (.chain (.block f.game b.tip.hash)) s
  have hl := Host.Leads.of_answer f (.fetchNext attempt target v.current.tip b.tip) ha
  obtain ⟨m, hm, hmem⟩ := hb.mono (now_le_of_leads hl)
  obtain rfl := hreply hr.game m hm b hmem rfl
  have hcheck : Follower.checkBlock b.tip b.payload = .ok b.header :=
    Follower.checkBlock_of_tip (L.decodes hb.holds) rfl
  have hfound : f.nextFetched attempt target v.current.tip b.tip b.payload =
      if b.header.parent = v.current.tip.hash then
        (f, .asks (.apply (.walk attempt target) v b.header b.payload))
      else f.walkFailed attempt (.chain (.notExtending b.tip v.current.tip)) := by
    by_cases hparent : b.header.parent = v.current.tip.hash
    · simp [Follower.nextFetched, hcheck, hr.view, hparent]
    · simp only [Follower.nextFetched, hcheck, ne_eq, hparent, not_false_eq_true, if_true, if_false]
      rfl
  refine ⟨t, ?_, hk⟩
  rw [← hfound]
  exact hl

theorem leads_lookup (S : Setting R L σ) (f : Follower) (cause : Cause) (v : View) (block : Json)
    (s : σ) :
    ∃ t, S.host.Leads (f, .asks (.lookup cause v block)) s
        (f.recordFound cause v block ((S.held s).record v.current.tip)) t ∧
      S.held t = S.held s := by
  obtain ⟨reply, t, ha, rfl, hk⟩ := S.exists_answer (.undo v.current.tip) s
  exact ⟨t, .of_answer f (.lookup cause v block) ha, hk⟩

/-- The newest block is undone with its record. -/
theorem leads_undo (cause : Cause) {below : List Block} (hr : S.Ready f s v (b :: below))
    (hj : R.Journaled L (S.held s) [b]) :
    ∃ before t, S.host.Leads (f, .asks (.lookup cause v b.payload)) s (f.retreated cause before) t ∧
      S.Ready (f.setCurrent before) t { v with current := before } below ∧
      (S.held t).record = (S.held s).record := by
  obtain ⟨before, step, ha, hcur⟩ := hr.keeps.stands.exists_applies
  obtain ⟨record, hrecord, hrec⟩ := hj b (by simp)
  obtain rfl := ha.record_eq hrec
  have htip : v.current.tip = b.tip := by rw [hcur]
  obtain ⟨t₁, hlookup, hk₁⟩ := S.leads_lookup f cause v b.payload s
  rw [htip, hrecord] at hlookup
  obtain ⟨reply₂, t₂, ha₂, hreply, hk₂⟩ :=
    S.exists_answer (.backward v.network v.current.state b.payload step.undo) t₁
  obtain rfl := hreply hr.network before.state (by rw [hcur]; exact ha.backward_eq)
  have hbefore := ha.before_eq ha.backward_eq
  have hrevert : S.host.Leads (f, .asks (.revert cause v b.payload ⟨b.header.parent, step.undo⟩)) t₁
      (f, .asks (.retreat cause before)) t₂ := by
    rw [hbefore, ← htip]
    exact .of_answer f (.revert cause v b.payload ⟨b.header.parent, step.undo⟩) ha₂
  obtain ⟨reply₃, t, ha₃, rfl, hk₃⟩ :=
    S.exists_answer (.commit (.withoutUndo before.tip before.state)) t₂
  have hretreat : S.host.Leads (f, .asks (.retreat cause before)) t₂ (f.retreated cause before) t :=
    .of_answer f (.retreat cause before) ha₃
  have hl := (hlookup.trans hrevert).trans hretreat
  rw [hk₂, hk₁] at hk₃
  refine ⟨before, t, hl, ⟨hr.game, by simp [hr.view], hr.network, hr.initial, ?_⟩, by simp [hk₃]⟩
  refine ⟨by simp [hk₃, Commit.withoutUndo, Commit.stored], ha.stands, ?_⟩
  intro c hc
  exact (hr.keeps.known c (List.mem_cons_of_mem _ hc)).mono (now_le_of_leads hl)

/-- In step, a follower takes the detaching of its newest block at its word. -/
theorem leads_detached_direct {note : Notification} {below : List Block}
    (hr : S.Ready f s v (b :: below)) (hj : R.Journaled L (S.held s) [b])
    (hstate : f.state = .synced) (hnote : note.mismatch = false)
    (hpayload : note.payload = b.payload) :
    ∃ before t, S.host.Leads (f.detached note) s (f.setCurrent before, .returned (.ok ())) t ∧
      S.Ready (f.setCurrent before) t { v with current := before } below ∧
      (S.held t).record = (S.held s).record := by
  obtain ⟨before, t, hl, hr', hrec⟩ := leads_undo .notified hr hj
  have htip : b.tip = v.current.tip := hr.keeps.stands.tip_eq
  have hroot : v.current.tip ≠ v.initial := by
    rw [hr.initial]
    exact fun heq => by simpa using hr.keeps.stands.eq_nil_iff.mpr heq
  have hpre : v.predates b.header = false := by simp [View.predates, hroot]
  have hhash : b.header.hash = v.current.tip.hash := congrArg Tip.hash htip
  refine ⟨before, t, ?_, hr', hrec⟩
  unfold Follower.detached
  rw [hpayload, L.decodes hr.keeps.stands.branch.1, hr.view]
  simp only
  rw [hpre, if_neg Bool.false_ne_true, if_pos ⟨hstate, hnote, hhash⟩]
  exact hl

/-- After a block has been committed, the call goes on whatever becomes of old records. -/
theorem leads_advanced (S : Setting R L σ) (f : Follower) (cause : Cause) (header : Header)
    (step : ForwardStep) (s : σ) :
    ∃ t, S.host.Leads (f.advanced cause header step) s
        ((f.setCurrent ⟨header.tip, step.state⟩).applied cause header.tip) t ∧
      (S.held t).current = (S.held s).current ∧ (f.pruning = none → S.held t = S.held s) := by
  unfold Follower.advanced
  simp only
  split
  · next below hb =>
    obtain ⟨reply, t, ha, hk⟩ := S.exists_answer (.prune below) s
    refine ⟨t, .of_answer _ (.prune cause header.tip below) ha, by rw [hk]; rfl, ?_⟩
    intro hp
    have hnone : (f.setCurrent ⟨header.tip, step.state⟩).pruning = none := hp
    simp [Follower.pruneBelow?, hnone] at hb
  · exact ⟨s, .refl _ _, rfl, fun _ => rfl⟩

/-- A block that lies on the local tip is applied. -/
theorem leads_apply (cause : Cause) (hr : S.Ready f s v bs) (hb : S.Known (S.now s) b)
    (hparent : b.header.parent = v.current.tip.hash) :
    ∃ after t, after.tip = b.tip ∧
      S.host.Leads (f, .asks (.apply cause v b.header b.payload)) s
        ((f.setCurrent after).applied cause b.tip) t ∧
      S.Ready (f.setCurrent after) t { v with current := after } (b :: bs) ∧
      (f.pruning = none → R.Journaled L (S.held s) bs → R.Journaled L (S.held t) (b :: bs)) := by
  obtain ⟨reply₁, t₁, ha₁, hreply, hk₁⟩ :=
    S.exists_answer (.forward v.network v.current.state b.payload) s
  obtain ⟨step, hstep, rfl⟩ := hreply hr.network
  have ha : R.Applies L bs v.current b step := ⟨hr.keeps.stands, hb.holds, hparent, hstep⟩
  have happly : S.host.Leads (f, .asks (.apply cause v b.header b.payload)) s
      (f, .asks (.advance cause b.header step)) t₁ :=
    .of_answer f (.apply cause v b.header b.payload) ha₁
  obtain ⟨reply₂, t₂, ha₂, rfl, hk₂⟩ :=
    S.exists_answer (.commit (.forward b.tip step.state b.header.parent step.undo)) t₁
  have hadvance : S.host.Leads (f, .asks (.advance cause b.header step)) t₁
      (f.advanced cause b.header step) t₂ :=
    .of_answer f (.advance cause b.header step) ha₂
  obtain ⟨t, hprune, hcur, hkeep⟩ := S.leads_advanced f cause b.header step t₂
  have hl := (happly.trans hadvance).trans hprune
  rw [hk₁] at hk₂
  refine ⟨⟨b.tip, step.state⟩, t, rfl, hl, ⟨hr.game, by simp [hr.view], hr.network, hr.initial,
    ?_⟩, ?_⟩
  · refine ⟨by simp [hcur, hk₂, Commit.forward, Commit.stored], ha.stands_cons, ?_⟩
    intro c hc
    rcases List.mem_cons.mp hc with rfl | hc
    · exact hb.mono (now_le_of_leads hl)
    · exact (hr.keeps.known c hc).mono (now_le_of_leads hl)
  · intro hp hj
    rw [hkeep hp, hk₂]
    exact hj.commit_forward ha

/-- The chain as a source, in states that count its changes; before each answer it changes from `n` to
`pace n`. -/
def movingSource (chain : Nat → L.Chain) (pace : Nat → Nat) : Source Nat where
  answer
    | .info, n => (.ok ⟨R.network, (chain (pace n)).tip.tip⟩, pace n)
    | .hashAt height, n => (.ok ((chain (pace n)).hashAt height), pace n)
    | .block _ hash, n =>
      match L.block hash with
      | some b => (.ok b.payload, pace n)
      | none => (.error (.unknownBlock hash), pace n)

def obedientGame (R : Rules) (σ : Type) : Game σ where
  names s := (.ok ⟨R.game, "", ""⟩, s)
  initial _ s := (.ok R.initial, s)
  forward _ state block s :=
    match R.forward state block with
    | some step => (.ok step, s)
    | none => (.error (.refused (.invalidBlock "")), s)
  backward _ state block undo s :=
    match R.backward state block undo with
    | some before => (.ok before, s)
    | none => (.error (.refused (.invalidUndo "")), s)

def movingHost (chain : Nat → L.Chain) (pace : Nat → Nat) :
    Host (MemoryStore × Nat) where
  source := ⟨fun q => within Prod.snd (fun n s => (s.1, n)) ((movingSource chain pace).answer q)⟩
  store := MemoryStore.store.lift Prod.fst fun store s => (store, s.2)
  game := obedientGame R _

/-- Only questions to the chain let it move. -/
theorem now_movingHost (chain : Nat → L.Chain) (pace : Nat → Nat) (r : Request)
    (s : MemoryStore × Nat) :
    ((movingHost chain pace).answer r s).2.2 = s.2 ∨
      ((movingHost chain pace).answer r s).2.2 = pace s.2 := by
  rcases r with (_ | height | ⟨game, hash⟩) | _ | c | tip | height | network |
    ⟨network, state, block⟩ | ⟨network, state, block, undo⟩
  · exact .inr rfl
  · exact .inr rfl
  · simp only [Host.answer, movingHost, movingSource, within]
    split <;> exact .inr rfl
  · exact .inl rfl
  · exact .inl rfl
  · exact .inl rfl
  · exact .inl rfl
  · exact .inl rfl
  · simp only [Host.answer, movingHost, obedientGame]
    split <;> exact .inl rfl
  · simp only [Host.answer, movingHost, obedientGame]
    split <;> exact .inl rfl

theorem replies_movingHost (chain : Nat → L.Chain) (pace : Nat → Nat)
    (forwards : ∀ state block, (R.forward state block).isSome) (r : Request)
    (s : MemoryStore × Nat) :
    R.Replies L chain ((movingHost chain pace).answer r s).2.2 s.1.holdings
      ((movingHost chain pace).answer r s).2.1.holdings r
      ((movingHost chain pace).answer r s).1 := by
  rcases r with (_ | height | ⟨game, hash⟩) | _ | c | tip | height | network |
    ⟨network, state, block⟩ | ⟨network, state, block, undo⟩
  · exact ⟨rfl, rfl⟩
  · exact ⟨rfl, rfl⟩
  · refine ⟨?_, ?_⟩
    · rintro _ m _ b hb rfl
      have hblock : L.block b.header.hash = some b := (chain m).linked.holds hb
      simp only [Host.answer, movingHost, movingSource, within, hblock]
      rfl
    · simp only [Host.answer, movingHost, movingSource, within]
  · exact ⟨rfl, rfl⟩
  · exact ⟨rfl, MemoryStore.holdings_commit c s.1⟩
  · exact ⟨rfl, rfl⟩
  · exact MemoryStore.holdings_dropBelow height s.1
  · exact ⟨fun _ => rfl, rfl⟩
  · obtain ⟨step, hstep⟩ := Option.isSome_iff_exists.mp (forwards state block)
    refine ⟨fun _ => ⟨step, hstep, ?_⟩, ?_⟩
    · simp only [Host.answer, movingHost, obedientGame, hstep]
      rfl
    · simp only [Host.answer, movingHost, obedientGame, hstep]
  · refine ⟨fun _ before hbefore => ?_, ?_⟩
    · simp only [Host.answer, movingHost, obedientGame, hbefore]
      rfl
    · simp only [Host.answer, movingHost, obedientGame]
      split <;> rfl

/-- These are settings, for a game that goes forwards over every block. -/
def moving (chain : Nat → L.Chain) (pace : Nat → Nat) (pace_le : ∀ n, n ≤ pace n)
    (forwards : ∀ state block, (R.forward state block).isSome) : Setting R L (MemoryStore × Nat) where
  host := movingHost chain pace
  chain := chain
  now := Prod.snd
  held s := s.1.holdings
  now_le r s := by
    rcases now_movingHost chain pace r s with h | h
    · exact Nat.le_of_eq h.symm
    · exact Nat.le_trans (pace_le s.2) (Nat.le_of_eq h.symm)
  replies r s := replies_movingHost chain pace forwards r s

end Setting

namespace Snapshot

variable {S : Setting R L σ} {f : Follower} {s : σ} {v : View} {bs : List Block}

/-- What is known of a reached follower when all its blocks have been canonical at some time. -/
theorem Reached.ready {result : Follower.Outcome}
    (h : Reached R L ⟨f, .returned result, S.held s⟩) (hv : f.view = some v)
    (hst : R.Stands L bs v.current) (hknown : ∀ b ∈ bs, S.Known (S.now s) b) :
    S.Ready f s v bs := by
  obtain ⟨hn, hi, hcur⟩ := h.invariant.coherent.1.view v hv
  exact ⟨h.invariant.coherent.1.game, hv, hn, hi, hcur, hst, hknown⟩

/-- The local branch is known by its end. -/
theorem Reached.stands_of_branch {m : Snapshot} (h : Reached R L m) (hv : m.follower.view = some v)
    (hb : L.Branch bs) (htop : (L.top bs).tip = v.current.tip) : R.Stands L bs v.current := by
  obtain ⟨cs, hst⟩ := h.stands hv
  have heq : L.top bs = L.top cs :=
    hb.holds_top.eq_of_tip hst.branch.holds_top (htop.trans hst.tip_eq.symm)
  rw [hb.unique hst.branch heq]
  exact hst

/-- Whatever record a store has for a block, it is the right one. -/
theorem Reached.journaled {m : Snapshot} (h : Reached R L m)
    (hrec : ∀ b ∈ bs, ∃ record, m.held.record b.tip = some record) : R.Journaled L m.held bs := by
  intro b hb
  obtain ⟨record, hr⟩ := hrec b hb
  exact ⟨record, hr, h.invariant.sound.record _ record hr⟩

end Snapshot

namespace Fork

/-- The fork in a setting with this history. -/
def setting (chain : Nat → ledger.Chain) (pace : Nat → Nat) (pace_le : ∀ n, n ≤ pace n) :
    Setting rules ledger (MemoryStore × Nat) :=
  .moving chain pace pace_le fun _ _ => rfl

/-- The chain goes to the end of the left branch, back, and to the end of the right one. -/
def history : Nat → ledger.Chain
  | 0 => toStart
  | 1 => toLeft
  | 2 => toLeftEnd
  | 3 => toLeft
  | 4 => toStart
  | 5 => toRight
  | _ => toRightEnd

theorem still_setting {chain : Nat → ledger.Chain} : (setting chain id Nat.le_refl).Still := by
  intro r s
  rcases Setting.now_movingHost (R := rules) chain id r s with h | h
  · exact h
  · exact h

theorem ready_left {chain : Nat → ledger.Chain} {pace : Nat → Nat} {pace_le : ∀ n, n ≤ pace n}
    {n : Nat} (h : (setting chain pace pace_le).Known n left) :
    (setting chain pace pace_le).Ready follower (store, n) view [left] := by
  refine ⟨rfl, rfl, rfl, rfl, rfl, applies_left.stands_cons, ?_⟩
  intro b hb
  rw [List.mem_singleton.mp hb]
  exact h

end Fork

end ChainFollower
