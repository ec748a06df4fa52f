import ChainFollower.Proofs.Sync.Conduct
import ChainFollower.Proofs.Sync.Course
import ChainFollower.Proofs.Sync.Origin

namespace ChainFollower

open Commit (standing summit Stacked Peeled)

namespace Commit

variable {origin tip : Tip} {steps below rest undone : List Commit} {c : Commit}

theorem Stacked.height_eq (h : Stacked origin steps) :
    (summit origin steps).height.toNat = origin.height.toNat + steps.length := by
  induction steps with
  | nil => rfl
  | cons c below ih =>
    have hbelow := ih h.2.2
    have hheight := h.2.1
    rw [summit_cons, List.length_cons]
    omega

theorem Peeled.height_eq (h : Peeled tip undone) :
    (summit tip undone).height.toNat + undone.length = tip.height.toNat := by
  induction undone with
  | nil => rfl
  | cons c earlier ih =>
    have hearlier := ih h.2
    have hheight := h.1.height
    rw [summit_cons, List.length_cons]
    omega

theorem Peeled.le_height (h : Peeled tip undone) (hc : c ∈ undone) :
    (summit tip undone).height.toNat ≤ c.tip.height.toNat := by
  induction undone with
  | nil => cases hc
  | cons d earlier ih =>
    rcases List.mem_cons.mp hc with rfl | hc
    · exact Nat.le_refl _
    · have hearlier := ih h.2 hc
      have hheight := h.1.height
      rw [summit_cons]
      omega

/-- Steps forwards stand on what stood before them. -/
theorem standing_append (h : Stacked origin steps) :
    standing (steps ++ rest) = steps ++ standing rest := by
  induction steps with
  | nil => rfl
  | cons c below ih =>
    have hsome : c.undo.isSome := h.isSome (.head _)
    rw [List.cons_append, standing, if_pos hsome, ih h.2.2]
    rfl

end Commit

/-- A trail does not go below its origin, so neither does the block from which it goes up again. -/
theorem Traced.origin_le {origin tip : Tip} {undone applied earlier : List Commit} {held : Holdings}
    (h : Traced origin (applied ++ (undone ++ earlier)) held)
    (hup : Stacked (summit tip undone) applied)
    (htop : summit origin (standing (applied ++ (undone ++ earlier))) =
      summit (summit tip undone) applied) :
    origin.height.toNat ≤ (summit tip undone).height.toNat := by
  have hheight := h.stacked.height_eq
  have hfork := hup.height_eq
  rw [htop, Commit.standing_append hup, List.length_append] at hheight
  omega

namespace Follower

variable {f g : Follower} {attempt n : Nat} {target tip : Tip} {call : Call}
  {commits : List Commit} {held : Holdings}

theorem committed_le_target (ha : call.Toward attempt target) {reply : (f.request call).Reply}
    {c : Commit} (hc : (f.request call).committed reply = some c) (hundo : c.undo.isSome) :
    c.tip.height.toNat ≤ target.height.toNat := by
  have hreq := Request.eq_commit_of_committed hc
  cases call with
  | create network initial => exact ha.elim
  | retreat cause stored =>
    cases hreq
    cases hundo
  | advance cause header step =>
    cases hreq
    exact ha.2
  | _ => cases hreq

/-- The heights in what an attempt asks for are exactly those of the local tip and next to it. -/
structure Exact (f : Follower) (target : Tip) (call : Call) : Prop where
  asked : ∀ height, f.request call = .chain (.hashAt height) → ∃ tip, f.tip? = some tip ∧
    (height = tip.height ∨
      tip.height.toNat < target.height.toNat ∧ height.toNat = tip.height.toNat + 1)
  committed : ∀ c, f.request call = .commit c →
    ∃ tip, f.tip? = some tip ∧ (c.Drops tip ∨ c.Rises tip)

theorem Knows.exact (hk : f.Knows commits held call) (h : Tracks commits held)
    (ha : call.Toward attempt target) : f.Exact target call where
  asked height hreq := by
    cases call with
    | compare n aim tip =>
      cases hreq
      exact ⟨tip, hk, .inl rfl⟩
    | next n aim tip =>
      cases hreq
      obtain ⟨_, rfl, hlt⟩ := ha
      exact ⟨tip, hk.1, .inr ⟨hlt, Ledger.toNat_succ_of_lt hk.2⟩⟩
    | _ => cases hreq
  committed c hreq := by
    cases call with
    | create network initial => exact ha.elim
    | retreat cause stored =>
      cases hreq
      obtain ⟨v, record, hv, hrec, htip⟩ := hk
      exact ⟨_, tip?_of_view hv, .inl (drops_of_record h hrec htip)⟩
    | advance cause header step =>
      cases hreq
      obtain ⟨v, hv, hon⟩ := hk
      exact ⟨_, tip?_of_view hv, .inr ⟨⟨step.undo, by rw [← hon.parent]; rfl⟩, hon.height⟩⟩
    | _ => cases hreq

end Follower

/-- The game may fail in a step. -/
def Terms.Fails (T : Terms) : Prop := ∃ r reply, T.replies r reply ∧ r.GameFails reply

namespace Snapshot

variable {T : Terms} {earlier commits undone applied : List Commit} {m m' : Snapshot}
  {attempt n : Nat} {first top target : Tip}

/-- What becomes of a moment with so many replies, and what is committed with them. -/
inductive Replied (T : Terms) (m : Snapshot) : Nat → List Commit → Snapshot → Prop
  | refl : Replied T m 0 [] m
  | reply {n : Nat} {commits : List Commit} {f : Follower} (call : Call) {held held' : Holdings}
      (reply : (f.request call).Reply) : Replied T m n commits ⟨f, .asks call, held⟩ →
      held.Answers (f.request call) reply held' → T.replies (f.request call) reply →
      Replied T m (n + 1) (((f.request call).committed reply).toList ++ commits)
        ⟨(f.proceed call reply).1, (f.proceed call reply).2, held'⟩

theorem Replied.replies {m₁ : Snapshot} {before : List Commit} (hr : Replied T m₁ n commits m')
    (h : Replies T m before m₁) : Replies T m (commits ++ before) m' := by
  induction hr with
  | refl => exact h
  | reply call reply _ stored told ih =>
    rw [List.append_assoc]
    exact ih.reply call reply stored told

/-- An attempt has been told the canonical tip. -/
def told (m : Snapshot) (attempt : Nat) (info : ChainInfo) (held : Holdings) : Snapshot :=
  let p := m.follower.proceed (.target attempt) (.ok info : Except ChainError ChainInfo)
  ⟨p.1, p.2, held⟩

/-- What holds after `n` replies to an attempt that knows its target. -/
structure Pursues (T : Terms) (attempt : Nat) (target : Tip) (n : Nat) (commits : List Commit)
    (m : Snapshot) : Prop where
  below : ∀ c ∈ commits, c.undo.isSome → c.tip.height.toNat ≤ target.height.toNat
  count : n ≤ 5 * commits.length + 5
  asks : ∀ call, m.next = .asks call → (∃ stage, call.stage? = some (attempt, stage)) ∧
    call.Toward attempt target ∧ n + 1 ≤ call.rank + 5 * commits.length
  halts : ∀ halt, m.next = .halted halt →
    (∃ tip, halt = .noUndoRecord m.follower.game tip) ∨ halt.Blames m.follower.game ∧ T.Fails

theorem pursues_told (m : Snapshot) (info : ChainInfo) (held : Holdings) :
    Pursues T attempt info.tip 0 [] (m.told attempt info held) where
  below := nofun
  count := Nat.zero_le 5
  asks call hcall := by
    have hnext : (m.follower.targetKnown attempt info.tip).2 = .asks call := hcall
    rcases m.follower.targetKnown_next attempt info.tip with ⟨tip, heq⟩ | ⟨e, heq⟩ | heq
    · cases heq.symm.trans hnext
      exact ⟨⟨_, rfl⟩, ⟨rfl, rfl⟩, Nat.le_refl 1⟩
    · rw [heq] at hnext
      exact absurd hnext (m.follower.walkFailed_ne_asks attempt e)
    · cases heq.symm.trans hnext
  halts halt hhalt := by
    have hnext : (m.follower.targetKnown attempt info.tip).2 = .halted halt := hhalt
    rcases m.follower.targetKnown_next attempt info.tip with ⟨tip, heq⟩ | ⟨e, heq⟩ | heq
    · cases heq.symm.trans hnext
    · rw [heq] at hnext
      exact absurd hnext (m.follower.walkFailed_ne_halted attempt e)
    · cases heq.symm.trans hnext

theorem Pursues.reply {f : Follower} {call : Call} {held held' : Holdings}
    (h : Pursues T attempt target n commits ⟨f, .asks call, held⟩) {reply : (f.request call).Reply}
    (told : T.replies (f.request call) reply) :
    Pursues T attempt target (n + 1) (((f.request call).committed reply).toList ++ commits)
      ⟨(f.proceed call reply).1, (f.proceed call reply).2, held'⟩ := by
  obtain ⟨⟨stage, hs⟩, htoward, hn⟩ := h.asks call rfl
  have hfares := Follower.fares_proceed hs reply
  refine ⟨?_, ?_, fun next hnext => ?_, fun halt hhalt => ?_⟩
  · intro c hc hundo
    rcases List.mem_append.mp hc with hc | hc
    · exact Follower.committed_le_target htoward (Option.mem_toList.mp hc) hundo
    · exact h.below c hc hundo
  · have hrank := call.rank_le
    rw [List.length_append]
    omega
  · obtain ⟨hstage, honward⟩ := hfares.onward hnext
    have hrank := honward.rank_lt
    rw [List.length_append]
    exact ⟨hstage, honward.toward attempt target htoward, by omega⟩
  · have hgame : (f.proceed call reply).1.game = f.game := (f.kin_proceed call reply).game
    show (∃ tip, halt = .noUndoRecord (f.proceed call reply).1.game tip) ∨
      halt.Blames (f.proceed call reply).1.game ∧ T.Fails
    rw [hgame]
    exact (hfares.halt hhalt).imp id fun hfails => ⟨hfails.1, _, _, told, hfails.2⟩

theorem Replied.pursues {info : ChainInfo} {held : Holdings}
    (hr : Replied T (m.told attempt info held) n commits m') :
    Pursues T attempt info.tip n commits m' := by
  induction hr with
  | refl => exact pursues_told m info held
  | reply call reply _ _ told ih => exact ih.reply told

/-- The way of an attempt that was told `target` and began at `top`, for a game that began on `first`:
what it has undone and then applied after `n` replies. -/
structure Bounded (first top target : Tip) (n : Nat) (undone applied : List Commit) : Prop where
  down : Peeled top undone
  up : Stacked (summit top undone) applied
  undone_le : undone.length ≤ top.height.toNat - first.height.toNat
  above : ∀ c ∈ undone, first.height.toNat ≤ c.tip.height.toNat
  applied_le : applied.length ≤ target.height.toNat - (summit top undone).height.toNat
  replies_le : n ≤ 5 * (undone.length + applied.length) + 5

theorem Bounded.limit (h : Bounded first top target n undone applied) :
    n ≤ 5 * (top.height.toNat - first.height.toNat + target.height.toNat) + 5 := by
  have hundone := h.undone_le
  have happlied := h.applied_le
  have hreplies := h.replies_le
  omega

/-- An attempt waits for a reply, or has come to an end. -/
inductive Outlook (T : Terms) (attempt : Nat) (target : Tip) (m : Snapshot) : Prop
  | asks (call : Call) : m.next = .asks call → call.Toward attempt target →
      m.follower.Exact target call → Outlook T attempt target m
  | ends (f : Follower) (result : Follower.Outcome) :
      (m.follower, m.next) = f.concluded attempt result → Outlook T attempt target m
  | lacks (tip : Tip) : m.next = .halted (.noUndoRecord m.follower.game tip) →
      m.follower.tip? = some tip → m.held.record tip = none → Outlook T attempt target m
  | fails (halt : Halt) : m.next = .halted halt → halt.Blames m.follower.game → T.Fails →
      Outlook T attempt target m

theorem head?_of_way (applied : List Commit) (down : Peeled top undone)
    (hhead : earlier.head?.map Commit.tip = some top) :
    (applied ++ (undone ++ earlier)).head?.map Commit.tip =
      some (summit (summit top undone) applied) := by
  cases applied with
  | cons c below => rfl
  | nil =>
    cases undone with
    | cons c before => rfl
    | nil => exact hhead

/-- The block from which an attempt goes up is not below the first one. -/
theorem History.first_le (hT : T.Aligned)
    (h : History T .empty (applied ++ (undone ++ earlier)) m) (down : Peeled top undone)
    (up : Stacked (summit top undone) applied) (hhead : earlier.head?.map Commit.tip = some top)
    (hlast : earlier.getLast?.map Commit.tip = some first) :
    first.height.toNat ≤ (summit top undone).height.toNat := by
  have hway := head?_of_way applied down hhead
  cases (h.tracked hT).1 with
  | blank hnil _ =>
    rw [hnil] at hway
    cases hway
  | traced origin htraced =>
    obtain ⟨c, hc, rfl⟩ := Option.map_eq_some_iff.mp hlast
    have horigin : c.tip = origin := by
      have hfirst := htraced.first
      simpa [List.getLast?_append, hc] using hfirst
    rw [horigin]
    exact htraced.origin_le up (Option.some.inj (htraced.tip_eq.symm.trans hway))

theorem Pursues.bounded (h : Pursues T attempt target n (applied ++ undone) m)
    (down : Peeled top undone) (up : Stacked (summit top undone) applied)
    (hfirst : first.height.toNat ≤ (summit top undone).height.toNat) :
    Bounded first top target n undone applied where
  down := down
  up := up
  undone_le := by
    have hheight := down.height_eq
    omega
  above c hc := Nat.le_trans hfirst (down.le_height hc)
  applied_le := by
    cases applied with
    | nil => exact Nat.zero_le _
    | cons c below =>
      have hheight := up.height_eq
      have hle := h.below c (.head _) (up.isSome (.head _))
      rw [Commit.summit_cons] at hheight
      omega
  replies_le := by
    have hcount := h.count
    rw [List.length_append] at hcount
    omega

/-- A moment of an attempt that is neither its end nor in a step of the game. -/
theorem Pursues.outlook (h : Pursues T attempt target n commits m)
    (htracks : Tracks (commits ++ earlier) m.held)
    (haware : Follower.Aware (commits ++ earlier) m.held (m.follower, m.next))
    (hends : (∃ call, m.next = .asks call) ∨
      (∃ f result, (m.follower, m.next) = Follower.concluded f attempt result) ∨
      ∃ halt, m.next = .halted halt) : Outlook T attempt target m := by
  unfold Follower.Aware at haware
  rcases hends with ⟨call, hcall⟩ | ⟨f, result, hend⟩ | ⟨halt, hhalt⟩
  · have htoward := (h.asks call hcall).2.1
    rw [hcall] at haware
    exact .asks call hcall htoward (Follower.Knows.exact haware htracks htoward)
  · exact .ends f result hend
  · rcases h.halts halt hhalt with ⟨tip, rfl⟩ | ⟨hblames, hfails⟩
    · rw [hhalt] at haware
      exact .lacks tip hhalt haware.1 haware.2
    · exact .fails halt hhalt hblames hfails

/-- An attempt at a walk ends, whatever is replied to it. From the local tip it goes down at most to the
block that the game began on, and from there up at most to the height that it was told, by exact steps
of one block and with at most five replies for each. So there is a limit to its replies before the first
of them, and then it has ended well or with an error, or it has halted: for want of a record, or because
the game fails in a step.

The limit counts from `first`, on which the store began. A follower that is set up anew on the same store
takes its own first block from the game, which may name another one by then; the records still go down to
`first`. Where the game always names one block, the two are the same. -/
theorem walk_bounded (hT : T.Aligned) (h : History T .empty earlier m)
    (hnext : m.next = .asks (.target attempt)) :
    ∃ v first, m.follower.view = some v ∧ earlier.getLast?.map Commit.tip = some first ∧
      (∀ tip, T.Founded tip → first = tip ∧ v.initial = tip) ∧
      (∀ e, m.follower.proceed (.target attempt) (.error e : Except ChainError ChainInfo) =
        m.follower.concluded attempt (.error (.chain e))) ∧
      ∀ info held n commits m',
        m.held.Answers (.chain .info) (.ok info : Except ChainError ChainInfo) held →
        T.replies (.chain .info) (.ok info : Except ChainError ChainInfo) →
        Replied T (m.told attempt info held) n commits m' →
        n ≤ 5 * (v.current.tip.height.toNat - first.height.toNat + info.tip.height.toNat) + 5 ∧
        ∃ undone applied, commits = applied ++ undone ∧
          Bounded first v.current.tip info.tip n undone applied ∧ Outlook T attempt info.tip m' := by
  obtain ⟨f, next, held₀⟩ := m
  obtain rfl : next = .asks (.target attempt) := hnext
  obtain ⟨v, hv⟩ := Option.isSome_iff_exists.mp (h.fit.admits _ rfl)
  have hlocal := h.head_eq hv
  obtain ⟨first, htraced, hsummit⟩ := (h.tracked hT).1.exists_summit hlocal
  refine ⟨v, first, hv, htraced.first, ?_, fun e => rfl, ?_⟩
  · intro tip hF
    exact ⟨h.oldest_eq hT hF htraced.first, h.initial_eq hF hv⟩
  · intro info held n commits m' stored told hr
    have hreplies : Replies T ⟨f, .asks (.target attempt), held₀⟩ (commits ++ []) m' :=
      hr.replies (Replies.refl.reply (.target attempt) _ stored told)
    rw [List.append_nil] at hreplies
    have hm' := hreplies.history h
    have hwalking := hreplies.walking hT h rfl (Follower.tip?_of_view hv)
    obtain ⟨undone, applied, g, rfl, hcourse, hends⟩ :=
      hwalking.course (Follower.tip?_of_view hv) hm'.agrees.published
    have hhead : earlier.head?.map Commit.tip = some v.current.tip := by
      obtain ⟨c, hc, hstored⟩ := Option.map_eq_some_iff.mp hlocal
      rw [hc, ← hstored]
      rfl
    have hle : first.height.toNat ≤ (summit v.current.tip undone).height.toNat := by
      rw [List.append_assoc] at hm'
      exact hm'.first_le hT hcourse.down hcourse.up hhead htraced.first
    have hpursues := hr.pursues
    have hbounded := hpursues.bounded hcourse.down hcourse.up hle
    obtain ⟨htracks, haware⟩ := hm'.tracked hT
    refine ⟨hbounded.limit, undone, applied, rfl, hbounded, hpursues.outlook htracks haware ?_⟩
    rcases hends with ⟨_, call, hcall, _⟩ | ⟨result, hend, _⟩ | ⟨_, hhalt⟩
    · exact .inl ⟨call, hcall⟩
    · exact .inr (.inl ⟨g, result, hend⟩)
    · exact .inr (.inr hhalt)

end Snapshot

namespace Fork

open Snapshot (Replied)

def rootHeld : Holdings := Holdings.empty.commit (.withoutUndo start.tip [])

/-- On its first block, the follower is told `left`. -/
def told : Snapshot :=
  Snapshot.told ⟨settler, .asks (.target 1), rootHeld⟩ 1 ⟨.regtest, left.tip⟩ rootHeld

/-- Of `left`, only the step over it is missing. -/
theorem replied_left : Replied (.lawful rules ledger 0) told 3 []
    ⟨settler.setState .catchingUp, .asks (.apply (.walk 1 left.tip) rootView left.header left.payload),
      rootHeld⟩ := by
  have htold : Replied (.lawful rules ledger 0) told 0 []
      ⟨settler, .asks (.compare 1 left.tip start.tip), rootHeld⟩ := .refl
  have hcompare := htold.reply (.compare 1 left.tip start.tip)
    (.ok (some start.header.hash) : Except ChainError (Option Hash)) rfl ⟨trivial, trivial⟩
  have hnext := hcompare.reply (.next 1 left.tip start.tip)
    (.ok (some left.header.hash) : Except ChainError (Option Hash)) rfl ⟨trivial, trivial⟩
  exact hnext.reply (.fetchNext 1 left.tip start.tip left.tip)
    (.ok left.payload : Except ChainError Json) rfl
    ⟨fun _ => by rintro _ ⟨⟩; exact admits_left, trivial⟩

/-- From `left`, with its record at hand, five replies lead down to `start` and six up to `right`. -/
theorem replied_right {f : Follower} {held : Holdings} (hstate : f.state = .synced)
    (hpruning : f.pruning = some 0)
    (hview : f.view = some ⟨.regtest, start.tip, ⟨left.tip, [0]⟩⟩)
    (hrecord : held.record left.tip = some ⟨start.header.hash, []⟩) :
    ∃ m, Replied (.lawful rules ledger 0)
        (Snapshot.told ⟨f, .asks (.target 1), held⟩ 1 ⟨.regtest, right.tip⟩ held) 11
        [.forward right.tip [0] start.header.hash [], .withoutUndo start.tip []] m ∧
      m.next = .returned (.ok ()) := by
  obtain ⟨game, retry, pruning, state, view, watch⟩ := f
  obtain rfl : state = .synced := hstate
  obtain rfl : pruning = some 0 := hpruning
  obtain rfl : view = some ⟨.regtest, start.tip, ⟨left.tip, [0]⟩⟩ := hview
  let view : View := ⟨.regtest, start.tip, ⟨left.tip, [0]⟩⟩
  let cause : Cause := .walk 1 right.tip
  let record : UndoRecord := ⟨start.header.hash, []⟩
  have htold : Replied (.lawful rules ledger 0)
      (Snapshot.told ⟨⟨game, retry, some 0, .synced, some view, watch⟩, .asks (.target 1), held⟩ 1
        ⟨.regtest, right.tip⟩ held) 0 []
      ⟨⟨game, retry, some 0, .synced, some view, watch⟩, .asks (.compare 1 right.tip left.tip), held⟩ :=
    .refl
  have hstale := htold.reply (.compare 1 right.tip left.tip)
    (.ok (some right.header.hash) : Except ChainError (Option Hash)) rfl ⟨trivial, trivial⟩
  have hlookup := hstale.reply (.fetchStale 1 right.tip left.tip)
    (.ok left.payload : Except ChainError Json) rfl
    ⟨fun _ => by rintro _ ⟨⟩; exact admits_left, trivial⟩
  have hrevert := hlookup.reply (.lookup cause view left.payload)
    (.ok (some record) : Except StoreError (Option UndoRecord))
    ⟨rfl, by rintro _ ⟨⟩; exact hrecord.symm⟩ ⟨trivial, _, rfl⟩
  have hretreat : Replied (.lawful rules ledger 0) _ 4 []
      ⟨_, .asks (.retreat cause ⟨⟨lower left.tip.height, record.parent⟩, []⟩), held⟩ :=
    hrevert.reply (.revert cause view left.payload record)
      (.ok [] : Except GameFailure Bytes) rfl ⟨by rintro _ _ ⟨⟩; rfl, trivial⟩
  have hback : (⟨lower left.tip.height, record.parent⟩ : Tip) = start.tip := by decide
  rw [hback] at hretreat
  have hfork := hretreat.reply (.retreat cause ⟨start.tip, []⟩)
    (.ok () : Except StoreError Unit) rfl ⟨trivial, rfl⟩
  have hnext := hfork.reply (.compare 1 right.tip start.tip)
    (.ok (some start.header.hash) : Except ChainError (Option Hash)) rfl ⟨trivial, trivial⟩
  have hfetch := hnext.reply (.next 1 right.tip start.tip)
    (.ok (some right.header.hash) : Except ChainError (Option Hash)) rfl ⟨trivial, trivial⟩
  have happly := hfetch.reply (.fetchNext 1 right.tip start.tip right.tip)
    (.ok right.payload : Except ChainError Json) rfl
    ⟨fun _ => by rintro _ ⟨⟩; exact Ledger.Holds.admits (b := right) rfl, trivial⟩
  have hadvance := happly.reply (.apply cause ⟨.regtest, start.tip, ⟨start.tip, []⟩⟩ right.header right.payload)
    (.ok ⟨[0], []⟩ : Except GameFailure ForwardStep) rfl ⟨by rintro _ _ ⟨⟩; rfl, trivial⟩
  have hprune := hadvance.reply (.advance cause right.header ⟨[0], []⟩)
    (.ok () : Except StoreError Unit) rfl ⟨trivial, rfl⟩
  have hend := hprune.reply (.prune cause right.tip 2)
    (.ok 0 : Except StoreError Nat) rfl ⟨trivial, _, rfl⟩
  exact ⟨_, hend, rfl⟩

end Fork

namespace Snapshot

/-- The walk from `left` to `right` undoes one block and applies one, which is all that the heights of
the local tip, of the first block and of the target leave room for. -/
theorem walk_bounded_fork : ∃ f m',
    History (.lawful Fork.rules Fork.ledger 0) .empty
      [.forward Fork.left.tip [0] Fork.start.header.hash [], .withoutUndo Fork.start.tip []]
      ⟨f, .asks (.target 1), Fork.leftHeld⟩ ∧
    Replied (.lawful Fork.rules Fork.ledger 0)
      (told ⟨f, .asks (.target 1), Fork.leftHeld⟩ 1 ⟨.regtest, Fork.right.tip⟩ Fork.leftHeld) 11
      [.forward Fork.right.tip [0] Fork.start.header.hash [], .withoutUndo Fork.start.tip []] m' ∧
    m'.next = .returned (.ok ()) ∧
    Bounded Fork.start.tip Fork.left.tip Fork.right.tip 11 [.withoutUndo Fork.start.tip []]
      [.forward Fork.right.tip [0] Fork.start.header.hash []] := by
  have hT : (Terms.lawful Fork.rules Fork.ledger 0).Aligned := Terms.keeps_lawful.consistent.aligned
  obtain ⟨f, h, hstate, hpruning, hview⟩ := Fork.history_left
  have hstarted : f.started = (f, .asks (.target 1)) := by
    unfold Follower.started
    rw [hview]
    rfl
  have hm := h.turn .started
  rw [hstarted] at hm
  have hrecord : Fork.leftHeld.record Fork.left.tip = some ⟨Fork.start.header.hash, []⟩ := by decide
  obtain ⟨m', hr, hnext⟩ := Fork.replied_right hstate hpruning hview hrecord
  refine ⟨f, m', hm, hr, hnext, ?_⟩
  obtain ⟨v, first, hv, hfirst, _, _, hall⟩ := walk_bounded hT hm rfl
  cases hview.symm.trans hv
  cases hfirst
  obtain ⟨_, undone, applied, heq, hbounded, _⟩ :=
    hall ⟨.regtest, Fork.right.tip⟩ _ _ _ _ rfl ⟨by rintro _ ⟨⟩; rfl, trivial⟩ hr
  -- Only a step forwards has an undo record, so there is one place to part the two commits.
  cases applied with
  | nil =>
    cases heq
    exact absurd hbounded.down.1.undo nofun
  | cons c below =>
    obtain ⟨rfl, hrest⟩ := List.cons.inj heq
    cases below with
    | nil =>
      cases hrest
      exact hbounded
    | cons d below =>
      obtain ⟨rfl, _⟩ := List.cons.inj hrest
      obtain ⟨_, hundo⟩ := hbounded.up.2.2.1
      cases hundo

/-- Where the game refuses a block of the canonical chain, a walk to it halts there, though records are
not missing. -/
theorem walk_halts_on_refusal : ∃ m',
    (Terms.lawful Fork.rules Fork.ledger 0).Aligned ∧
    History (.lawful Fork.rules Fork.ledger 0) .empty [.withoutUndo Fork.start.tip []]
      ⟨Fork.settler, .asks (.target 1), Fork.rootHeld⟩ ∧
    Replied (.lawful Fork.rules Fork.ledger 0) Fork.told 4 [] m' ∧
    m'.next = .halted (.notApplied "g" Fork.left.tip (.invalidBlock "bad move")) ∧
    (∀ game tip, m'.next ≠ .halted (.noUndoRecord game tip)) ∧
    ¬∃ f result, (m'.follower, m'.next) = Follower.concluded f 1 result := by
  have hrefused := Fork.replied_left.reply
    (.apply (.walk 1 Fork.left.tip) Fork.rootView Fork.left.header Fork.left.payload)
    (.error (.refused (.invalidBlock "bad move")) : Except GameFailure ForwardStep) rfl
    ⟨by rintro _ _ ⟨⟩, trivial⟩
  refine ⟨_, Terms.keeps_lawful.consistent.aligned, Fork.history_settler, hrefused, rfl, nofun, ?_⟩
  rintro ⟨f, result, hend⟩
  have hnext := congrArg Prod.snd hend
  cases result with
  | ok u => exact absurd hnext nofun
  | error e => exact f.walkFailed_ne_halted 1 e hnext.symm

end Snapshot

end ChainFollower
