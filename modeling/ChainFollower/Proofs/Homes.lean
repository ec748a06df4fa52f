import ChainFollower.Proofs.Notify.Worker
import ChainFollower.Proofs.Store.Separation
import ChainFollower.Rehearsal.World

namespace ChainFollower

open FileTree (joinPath)

/-- The store answers the same in both places. -/
structure Store.Same {σ : Type} (store : Store σ) (s s' : σ) : Prop where
  load : (store.load s').1 = (store.load s).1
  undo : ∀ tip, (store.undo tip s').1 = (store.undo tip s).1
  heights : (store.heights s').1 = (store.heights s).1
  prune : ∀ height, (store.prune height s').1 = (store.prune height s).1

/-- The store in the folder that a path leads to. -/
def FileStore.atPath (path : String) : FileStore := ⟨home path, path⟩

namespace Daemon

open Rehearsal

variable {τ : Type} {grounds : Grounds World τ} {config : DaemonConfig} {dir : String} {transport : Bool}
  {source : Source World} {t t' : τ} {daemon daemon' : Daemon World} {r : Registration World}
  {registrations : List (Registration World)}

/-- The store of a game in the data folder. -/
def homeOf (dir game : String) : Store World := World.shelved (.folder (.atPath (joinPath dir game)))

theorem same_of_sameAnswers {s : FileStore} {w w' : World}
    (h : s.SameAnswers w.depot.files w'.depot.files) : (World.shelved (.folder s)).Same w w' where
  load := h.load
  undo := h.records.undo
  heights := h.records.heights
  prune := h.records.prune

theorem store_of_openStore {path : String} {store : Store World} {w w' : World}
    (h : World.site.openStore (some path) w = (.ok store, w')) :
    store = World.shelved (.folder (.atPath path)) := by
  obtain ⟨hstore, -⟩ := Prod.ext_iff.mp h
  change Except.map World.shelved ((FileStore.open? path w.depot.files).1.map .folder) = .ok store at hstore
  cases hopen : FileStore.open? path w.depot.files with
  | mk opened files =>
    rw [hopen] at hstore
    cases opened with
    | error e => cases hstore
    | ok s =>
      rw [FileStore.eq_home_of_open? hopen] at hstore
      cases hstore
      rfl

theorem openGame_eq_ok {taken : List String} {names : GameNames} {hosted : Hosted World}
    (hstore : r.store = none) (hdir : config.dataDir = some dir)
    (h : openGame World.site grounds config source taken r t = (.ok (names, hosted), t')) :
    names.id ∉ taken ∧ hosted.host.store = homeOf dir names.id := by
  unfold openGame at h
  split at h
  · cases h
  · cases h
  · next given t₁ _ =>
    split at h
    · cases h
    · next hfree =>
      split at h
      · cases h
      · next store t₂ hopened =>
        have hhome : store = homeOf dir given.id := by
          simp only [Site.storeFor, hstore, DaemonConfig.gameDir, hdir, Option.map_some, Grounds.call,
            within] at hopened
          generalize hopen : World.site.openStore (some (joinPath dir given.id)) (grounds.place t₁) = out at hopened
          obtain ⟨result, w⟩ := out
          cases hopened
          exact store_of_openStore hopen
        simp only at h
        split at h
        · cases h
          exact ⟨by simpa using hfree, hhome⟩
        · cases h
        · cases h
        · cases h

/-- Every game has one listener, which has the store in the folder of its id. -/
structure Housed (dir : String) (games : List GameNames) (listeners : List (String × List (Hosted World))) :
    Prop where
  nodup : (games.map GameNames.id).Nodup
  listed : ∀ names ∈ games, ∃ hosted, listeners.lookup names.id = some [hosted] ∧
    hosted.host.store = homeOf dir names.id
  only : ∀ id, id ∉ games.map GameNames.id → listeners.lookup id = none

theorem Housed.enlist {games : List GameNames} {listeners : List (String × List (Hosted World))}
    (h : Housed dir games listeners) {names : GameNames} {hosted : Hosted World}
    (hfree : names.id ∉ games.map GameNames.id) (hstore : hosted.host.store = homeOf dir names.id) :
    Housed dir (games ++ [names]) (Subscriber.enlist listeners names.id hosted) where
  nodup := by
    rw [List.map_append, List.map_singleton]
    exact h.nodup.append (List.nodup_singleton _) (by simpa using hfree)
  listed other hother := by
    rw [lookup_enlist]
    rcases List.mem_append.mp hother with hold | hnew
    · have hne : other.id ≠ names.id := fun heq => hfree (heq ▸ List.mem_map_of_mem hold)
      rw [if_neg hne]
      exact h.listed other hold
    · obtain rfl := List.mem_singleton.mp hnew
      rw [if_pos rfl, h.only other.id hfree]
      exact ⟨hosted, rfl, hstore⟩
  only id hid := by
    simp only [List.map_append, List.map_singleton, List.mem_append, List.mem_singleton, not_or] at hid
    rw [lookup_enlist, if_neg hid.2]
    exact h.only id hid.1

theorem Housed.openGames (hdir : config.dataDir = some dir) (hstores : ∀ r ∈ registrations, r.store = none)
    (hdaemon : Housed dir daemon.games daemon.subscriber.listeners)
    (h : openGames World.site grounds config source registrations daemon t = (.ok daemon', t')) :
    Housed dir daemon'.games daemon'.subscriber.listeners := by
  induction registrations generalizing daemon t with
  | nil =>
    cases h
    exact hdaemon
  | cons r rest ih =>
    unfold Daemon.openGames at h
    split at h
    · cases h
    · next names hosted t₁ hopen =>
      obtain ⟨hfree, hstore⟩ := openGame_eq_ok (hstores r List.mem_cons_self) hdir hopen
      exact ih (fun r hr => hstores r (List.mem_cons_of_mem _ hr)) (by exact hdaemon.enlist hfree hstore) h

theorem listeners_launch {σ : Type} {site : Site σ} {daemon daemon' : Daemon σ} {s s' : σ}
    (h : daemon.launch site config s = (.ok daemon', s')) :
    daemon'.games = daemon.games ∧ daemon'.listeners = daemon.subscriber.listeners := by
  unfold launch at h
  simp only at h
  split at h
  · cases h
  · next subscriber bus hlaunch =>
    cases h
    refine ⟨rfl, ?_⟩
    unfold Subscriber.launch at hlaunch
    split at hlaunch
    · cases hlaunch
    · split at hlaunch
      · cases hlaunch
      · split at hlaunch
        · cases hlaunch
        · cases hlaunch
          rfl

/-- The games of a daemon are housed. -/
theorem housed_of_build (hdir : config.dataDir = some dir) (hstores : ∀ r ∈ registrations, r.store = none)
    {source : Option (Source World)}
    (h : build World.site grounds config transport source registrations t = (.ok daemon, t')) :
    Housed dir daemon.games daemon.listeners := by
  unfold build at h
  split at h
  · cases h
  · split at h
    · cases h
    · split at h
      · cases h
      · split at h
        · cases h
        · next opened t₁ hopen =>
          have hstart : Housed dir [] [] := ⟨List.nodup_nil, nofun, fun _ _ => rfl⟩
          have hhoused : Housed dir opened.games opened.subscriber.listeners :=
            Housed.openGames hdir hstores (by exact hstart) hopen
          simp only [Grounds.call, within] at h
          generalize hlaunch : opened.launch World.site config (grounds.place t₁) = out at h
          obtain ⟨result, w⟩ := out
          cases h
          obtain ⟨hgames, hlisteners⟩ := listeners_launch hlaunch
          rw [hgames, hlisteners]
          exact hhoused

theorem disjoint_iff_home_ne {path path' : String} :
    (∀ p, ¬((FileStore.atPath path).Owns p ∧ (FileStore.atPath path').Owns p)) ↔
      FileStore.home path ≠ FileStore.home path' := by
  constructor
  · intro hdisjoint hsame
    have howns := FileStore.owns_currentPath (.atPath path)
    exact hdisjoint _ ⟨howns, (FileStore.owns_congr hsame).mp howns⟩
  · rintro hne p ⟨howns, howns'⟩
    exact hne (FileStore.base_eq_of_owns howns howns')

/-- The games of a daemon that bring no stores have different ids. Two of them have no file in common
exactly where their ids lead to different folders, as names of their own do. There no commit to the store of
the one and no pruning of it changes an answer of the other's, and where the folder is the same, what is
committed to the one is what the other one holds. -/
theorem stores_apart_iff (hdir : config.dataDir = some dir) (hstores : ∀ r ∈ registrations, r.store = none)
    {source : Option (Source World)}
    (hbuild : build World.site grounds config transport source registrations t = (.ok daemon, t')) :
    (daemon.games.map GameNames.id).Nodup ∧
      ∀ a ∈ daemon.games, ∀ b ∈ daemon.games, a ≠ b →
        ∃ ha hb : Hosted World,
          daemon.listeners.lookup a.id = some [ha] ∧ daemon.listeners.lookup b.id = some [hb] ∧
          ha.host.store = homeOf dir a.id ∧ hb.host.store = homeOf dir b.id ∧
          ((∀ p, ¬((FileStore.atPath (joinPath dir a.id)).Owns p ∧
              (FileStore.atPath (joinPath dir b.id)).Owns p)) ↔
            FileStore.home (joinPath dir a.id) ≠ FileStore.home (joinPath dir b.id)) ∧
          (FileTree.IsName a.id → FileTree.IsName b.id →
            FileStore.home (joinPath dir a.id) ≠ FileStore.home (joinPath dir b.id)) ∧
          (FileStore.home (joinPath dir a.id) ≠ FileStore.home (joinPath dir b.id) → ∀ w : World,
            (∀ c, hb.host.store.Same w (ha.host.store.commit c w).2) ∧
              ∀ height, hb.host.store.Same w (ha.host.store.prune height w).2) ∧
          (FileStore.home (joinPath dir a.id) = FileStore.home (joinPath dir b.id) →
            (FileStore.atPath (joinPath dir b.id)).reaches FileStore.currentName = true →
            ∀ (c : Commit) (w w' : World), c.Small → ha.host.store.commit c w = (.ok (), w') →
              (hb.host.store.load w').1 = .ok (some c.stored)) := by
  have hhoused := housed_of_build hdir hstores hbuild
  refine ⟨hhoused.nodup, fun a ha b hb hne => ?_⟩
  have hid : a.id ≠ b.id := fun heq => hne (List.inj_on_of_nodup_map hhoused.nodup ha hb heq)
  obtain ⟨hosted, hlookup, hstore⟩ := hhoused.listed a ha
  obtain ⟨hosted', hlookup', hstore'⟩ := hhoused.listed b hb
  refine ⟨hosted, hosted', hlookup, hlookup', hstore, hstore', disjoint_iff_home_ne, ?_, ?_, ?_⟩
  · exact fun hname hname' hsame => hid (FileStore.home_joinPath_inj hname hname' hsame)
  · intro hapart w
    rw [hstore, hstore']
    exact ⟨fun c => same_of_sameAnswers (FileStore.sameAnswers_commit hapart c w.depot.files),
      fun height => same_of_sameAnswers (FileStore.sameAnswers_prune hapart height w.depot.files)⟩
  · intro hsame hreaches c w w' hsmall hcommit
    rw [hstore] at hcommit
    rw [hstore']
    have hok : ((homeOf dir a.id).commit c w).1 = .ok () := congrArg Prod.fst hcommit
    have hworld : ((homeOf dir a.id).commit c w).2 = w' := congrArg Prod.snd hcommit
    have hfiles : (FileStore.atPath (joinPath dir a.id)).commit c w.depot.files =
        (.ok (), w'.depot.files) := by
      rw [← hworld]
      exact Prod.ext hok rfl
    exact FileStore.load_shared hsame hreaches hsmall hfiles

/-- A daemon with games that count blocks, which keep their states below the folder `d`. -/
def counters (ids : List String) : Except BuildFailure (Daemon World) × World :=
  build World.site ⟨id, fun w _ => w, fun d w => w.rest d⟩ { DaemonConfig.standard [] with dataDir := some "d" }
    true (some World.source)
    (ids.map fun id => ⟨Counter.game ⟨id, none⟩ SimulatedChain.genesis.tip, none⟩)
    (.start .regtest .empty)

def countersGames (ids : List String) : Option (List GameNames) :=
  (counters ids).1.toOption.map Daemon.games

theorem exists_counters {ids : List String} {games : List GameNames} (h : countersGames ids = some games) :
    ∃ daemon w, counters ids = (.ok daemon, w) ∧ daemon.games = games := by
  unfold countersGames at h
  generalize counters ids = built at h
  obtain ⟨result, w⟩ := built
  cases result with
  | error e => cases h
  | ok daemon => exact ⟨daemon, w, rfl, Option.some.inj h⟩

theorem stores_apart_counters :
    ∃ (daemon : Daemon World) (w : World), counters ["a", "b"] = (.ok daemon, w) ∧
      ∃ ha hb : Hosted World,
        daemon.listeners.lookup "a" = some [ha] ∧ daemon.listeners.lookup "b" = some [hb] ∧
        ∀ w c, hb.host.store.Same w (ha.host.store.commit c w).2 := by
  have hgames : countersGames ["a", "b"] = some [⟨"a", "Counter a", "1"⟩, ⟨"b", "Counter b", "1"⟩] := by
    decide +kernel
  obtain ⟨daemon, w, hbuild, hlist⟩ := exists_counters hgames
  obtain ⟨-, hapart⟩ := stores_apart_iff rfl (by simp) hbuild
  obtain ⟨ha, hb, hlookup, hlookup', -, -, -, hnames, hsame, -⟩ :=
    hapart ⟨"a", "Counter a", "1"⟩ (by simp [hlist]) ⟨"b", "Counter b", "1"⟩ (by simp [hlist]) (by decide)
  have hname : FileTree.IsName "a" := ⟨by decide, by decide, by decide, by decide⟩
  have hname' : FileTree.IsName "b" := ⟨by decide, by decide, by decide, by decide⟩
  exact ⟨daemon, w, hbuild, ha, hb, hlookup, hlookup', fun w c => (hsame (hnames hname hname') w).1 c⟩

/-- Whether a commit to the store of the first game changes what the second one has stored. -/
def changesOther (game other : String) (c : Commit) : Except BuildFailure (Daemon World) × World → Bool
  | (.ok daemon, w) =>
    match daemon.listeners.lookup game, daemon.listeners.lookup other with
    | some [hosted], some [hosted'] =>
      decide ((hosted'.host.store.load (hosted.host.store.commit c w).2).1.toOption ≠
        (hosted'.host.store.load w).1.toOption)
    | _, _ => false
  | (.error _, _) => false

/-- The two ids lead to one folder, and a commit for one game changes what the other one has stored. -/
theorem counters_share_store :
    ∃ (daemon : Daemon World) (w : World), counters ["a", "a/"] = (.ok daemon, w) ∧
      ∃ ha hb : Hosted World,
        daemon.listeners.lookup "a" = some [ha] ∧ daemon.listeners.lookup "a/" = some [hb] ∧
        ∃ c, (hb.host.store.load (ha.host.store.commit c w).2).1 ≠ (hb.host.store.load w).1 := by
  have hchanges : changesOther "a" "a/" (.forward ⟨1, .zero⟩ [7] .zero [8]) (counters ["a", "a/"]) = true := by
    decide +kernel
  generalize counters ["a", "a/"] = built at hchanges
  obtain ⟨result, w⟩ := built
  cases result with
  | error e => cases hchanges
  | ok daemon =>
    unfold changesOther at hchanges
    simp only at hchanges
    split at hchanges
    · next ha hb hlookup hlookup' =>
      refine ⟨daemon, w, rfl, ha, hb, hlookup, hlookup', .forward ⟨1, .zero⟩ [7] .zero [8], fun hsame => ?_⟩
      exact of_decide_eq_true hchanges (congrArg Except.toOption hsame)
    · cases hchanges

end Daemon

end ChainFollower
