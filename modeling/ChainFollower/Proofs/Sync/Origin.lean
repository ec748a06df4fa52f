import ChainFollower.Proofs.Sync.Stages

namespace ChainFollower

/-- The initial state that a call is about to take over. -/
def Call.initial? : Call → Option InitialState
  | .resume _ initial => some initial
  | .create _ initial => some initial
  | _ => none

/-- Whatever network it is asked for, the game begins on this block. -/
def Terms.Founded (T : Terms) (first : Tip) : Prop :=
  ∀ network initial, T.replies (.initial network) (.ok initial : Except GameFailure InitialState) →
    initial.tip = first

namespace Follower

variable {f g : Follower} {call : Call} {reply : (f.request call).Reply} {done : Option Commit}
  {p : Follower × Next} {first : Tip} {commits : List Commit}

/-- The block that the game begins on, as far as the follower knows. -/
def first? (f : Follower) : Option Tip := f.view.map View.initial

theorem first?_setCurrent (stored : StoredState) : (f.setCurrent stored).first? = f.first? := by
  simp [first?, Function.comp_def]

theorem Alike.first?_eq (h : f.Alike g) : g.first? = f.first? := by
  unfold first?
  rw [h.view]

/-- No other block is taken for the first one. -/
structure Stays (f : Follower) (p : Follower × Next) : Prop where
  first : p.1.first? = f.first?
  call : ∀ call ∈ p.2.call?, call.initial? = none

theorem Stays.asks (hfirst : g.first? = f.first?) (hc : call.initial? = none) :
    Stays f (g, .asks call) where
  first := hfirst
  call := by
    rintro _ ⟨⟩
    exact hc

theorem Stays.trans {q : Follower × Next} (hp : g.first? = f.first?) (h : Stays g q) : Stays f q :=
  ⟨h.first.trans hp, h.call⟩

theorem Stays.idle {next : Next} (hfirst : g.first? = f.first?) (hidle : next.call? = none) :
    Stays f (g, next) where
  first := hfirst
  call call hc := by
    rw [hidle] at hc
    cases hc

theorem stays_walkFailed (attempt : Nat) (e : SyncError) : Stays f (f.walkFailed attempt e) := by
  obtain ⟨halike, hcall⟩ := f.walkFailed_spec attempt e
  refine ⟨halike.first?_eq, fun call hc => ?_⟩
  rw [hcall call hc]
  rfl

theorem stays_retreated (cause : Cause) (stored : StoredState) : Stays f (f.retreated cause stored) := by
  cases cause with
  | notified => exact .idle (first?_setCurrent stored) rfl
  | walk attempt target => exact .asks (first?_setCurrent stored) rfl

theorem stays_applied (cause : Cause) (tip : Tip) : Stays f (f.applied cause tip) := by
  cases cause with
  | notified => exact .idle rfl rfl
  | walk attempt target =>
    unfold applied climb
    simp only
    split
    · exact .idle rfl rfl
    · exact .asks rfl rfl

theorem stays_started : Stays f f.started := by
  unfold started
  split
  · exact .asks rfl rfl
  · exact .idle rfl rfl

theorem stays_notified (note : Notification) : Stays f (f.notified note) := by
  obtain ⟨_, heq⟩ | heq | ⟨_, _, _, _, heq | ⟨_, _, heq⟩ | ⟨_, heq⟩⟩ := f.notified_cases note <;>
    rw [heq]
  · exact .idle rfl rfl
  · exact .idle rfl rfl
  · exact .asks rfl rfl
  · exact .asks rfl rfl
  · exact .asks rfl rfl

/-- The follower knows of no other first block, and is not about to. -/
structure Begins (first : Tip) (p : Follower × Next) : Prop where
  known : ∀ tip, p.1.first? = some tip → tip = first
  call : ∀ call ∈ p.2.call?, ∀ initial, call.initial? = some initial → initial.tip = first

theorem Stays.begins (h : Stays f p) (hf : ∀ tip, f.first? = some tip → tip = first) :
    Begins first p where
  known tip ht := hf tip (h.first.symm.trans ht)
  call call hc initial hi := by
    rw [h.call call hc] at hi
    cases hi

theorem begins_settled {network : Network} {initial : InitialState} (hi : initial.tip = first)
    (stored : StoredState) : Begins first (f.settled network initial stored) where
  known := by
    rintro _ ⟨⟩
    exact hi
  call := by
    rintro _ ⟨⟩ _ ⟨⟩

theorem Begins.asks (hf : ∀ tip, f.first? = some tip → tip = first)
    (hc : ∀ initial, call.initial? = some initial → initial.tip = first) :
    Begins first (f, .asks call) where
  known := hf
  call := by
    rintro _ ⟨⟩
    exact hc

/-- Only a call that initializes takes over an initial state, and that is the one of the game. -/
theorem Begins.follows {next : Call} {T : Terms} (hT : T.Founded first)
    (hb : Begins first (f, .asks call)) (h : f.Asks call reply next)
    (told : T.replies (f.request call) reply) : Begins first (f, .asks next) := by
  refine .asks hb.known ?_
  cases h with
  | resume network initial =>
    rintro _ ⟨⟩
    exact hT network initial told
  | create network initial => exact hb.call (.resume network initial) rfl
  | _ => exact nofun

theorem Yields.begins {T : Terms} (hT : T.Founded first) (h : f.Yields call reply done p)
    (hb : Begins first (f, .asks call)) (told : T.replies (f.request call) reply) :
    Begins first p := by
  cases h with
  | fails attempt e _ _ => exact (stays_walkFailed attempt e).begins hb.known
  | drops _ _ => exact (Stays.idle alike_fail.first?_eq rfl).begins hb.known
  | asks h => exact hb.follows hT h told
  | rests attempt d e => exact ⟨hb.known, by rintro _ ⟨⟩ _ ⟨⟩⟩
  | aborts e _ => exact (Stays.idle rfl rfl).begins hb.known
  | declines network e => exact (Stays.idle rfl rfl).begins hb.known
  | breaks network b => exact (Stays.idle rfl rfl).begins hb.known
  | halts _ _ => exact (Stays.idle rfl rfl).begins hb.known
  | lacks cause view block => exact (Stays.idle rfl rfl).begins hb.known
  | loads network initial stored => exact begins_settled (hb.call _ rfl initial rfl) stored
  | creates network initial => exact begins_settled (hb.call _ rfl initial rfl) _
  | stands attempt info hv => exact (Stays.idle rfl rfl).begins hb.known
  | arrives attempt hle => exact (Stays.idle rfl rfl).begins hb.known
  | catchesUp attempt hlt => exact .asks hb.known nofun
  | reorganizes attempt target hne => exact .asks hb.known nofun
  | undoes cause stored => exact (stays_retreated cause stored).begins hb.known
  | prunes cause step hbelow => exact (Stays.asks (first?_setCurrent _) rfl).begins hb.known
  | applies cause header step =>
    exact (Stays.trans (first?_setCurrent _) (stays_applied cause header.tip)).begins hb.known
  | pruned cause tip below reply => exact (stays_applied cause tip).begins hb.known

end Follower

namespace Snapshot

variable {T : Terms} {first : Tip} {commits : List Commit} {m : Snapshot}

theorem History.begins (hF : T.Founded first) (h : History T .empty commits m) :
    Follower.Begins first (m.follower, m.next) := by
  induction h with
  | start game retry pruning set => exact ⟨nofun, nofun⟩
  | @turn commits done m m' h hturn ih =>
    cases hturn with
    | reply reply stored told =>
      exact (Follower.yields_proceed _ _ reply).begins hF ih told
    | wake => exact ⟨ih.known, ih.call⟩
    | initialized => exact .asks ih.known nofun
    | started => exact Follower.stays_started.begins ih.known
    | notified note told => exact (Follower.stays_notified note).begins ih.known
    | restart game retry pruning set => exact ⟨nofun, nofun⟩

/-- The first commit of all is that of the initial state. -/
theorem History.oldest_eq (hT : T.Aligned) (hF : T.Founded first) (h : History T .empty commits m)
    {tip : Tip} (htip : commits.getLast?.map Commit.tip = some tip) : tip = first := by
  induction h with
  | start game retry pruning set => cases htip
  | @turn commits done m m' h hturn ih =>
    cases commits with
    | cons c earlier => exact ih (by simpa [List.getLast?_append] using htip)
    | nil =>
      cases hturn with
      | @reply f call held held' reply stored told =>
        have hview : f.view = none := by
          cases hv : f.view with
          | none => rfl
          | some v => cases h.head_eq hv
        have haware := (h.tracked hT).2
        cases hc : (f.request call).committed reply with
        | none =>
          rw [hc] at htip
          cases htip
        | some c =>
          rw [hc] at htip
          obtain rfl : c.tip = tip := Option.some.inj htip
          have hreq := Request.eq_commit_of_committed hc
          cases call with
          | create network initial =>
            cases hreq
            exact (h.begins hF).call _ rfl initial rfl
          | retreat cause stored =>
            obtain ⟨v, _, hv, _⟩ := haware
            cases hview.symm.trans hv
          | advance cause header step =>
            obtain ⟨v, hv, _⟩ := haware
            cases hview.symm.trans hv
          | _ => cases hreq
      | _ => cases htip

/-- A follower takes the block for the first one that its store began with. -/
theorem History.initial_eq (hF : T.Founded first) (h : History T .empty commits m)
    {v : View} (hv : m.follower.view = some v) : v.initial = first :=
  (h.begins hF).known v.initial (by simp [Follower.first?, hv])

end Snapshot

end ChainFollower
