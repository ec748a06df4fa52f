import ChainFollower.Proofs.Store.File

namespace ChainFollower

open FileTree (Path)

/-- What a follower may ask of a store. -/
inductive StoreCall
  | load
  | commit (c : Commit)
  | undo (tip : Tip)
  | prune (height : UInt64)
  | heights

inductive StoreAnswer
  | current (stored : Option StoredState)
  | committed
  | record (record : Option UndoRecord)
  | pruned (count : Nat)
  | heights (heights : List UInt64)
  | opened
  | failed (error : StoreError)
  deriving DecidableEq

/-- Something that is done with a store. -/
inductive Visit
  | call (c : StoreCall)
  | reopen

namespace StoreAnswer

def of {α : Type} (whole : α → StoreAnswer) : Except StoreError α → StoreAnswer
  | .ok a => whole a
  | .error e => failed e

theorem of_eq_ok {α : Type} {whole : α → StoreAnswer} {r : Except StoreError α}
    (h : of whole r ≠ failed .io) (hr : ∀ e, r = .error e → e = .io) : ∃ a, r = .ok a := by
  cases r with
  | ok a => exact ⟨a, rfl⟩
  | error e =>
    obtain rfl := hr e rfl
    exact absurd rfl h

end StoreAnswer

def Store.answer {σ : Type} (store : Store σ) : StoreCall → σ → StoreAnswer × σ
  | .load, s => (store.load s).map (.of .current) id
  | .commit c, s => (store.commit c s).map (.of fun _ => .committed) id
  | .undo tip, s => (store.undo tip s).map (.of .record) id
  | .prune height, s => (store.prune height s).map (.of .pruned) id
  | .heights, s => (store.heights s).map (.of .heights) id

/-- The answers to a sequence of visits, and what the store is then. -/
def answers {σ : Type} (visit : Visit → σ → StoreAnswer × σ) : List Visit → σ → List StoreAnswer × σ
  | [], s => ([], s)
  | v :: vs, s =>
    let (answer, s) := visit v s
    let (rest, s) := answers visit vs s
    (answer :: rest, s)

def MemoryStore.visit : Visit → MemoryStore → StoreAnswer × MemoryStore
  | .call c, m => MemoryStore.store.answer c m
  | .reopen, m => (.opened, m)

/-- A byte string of a program is shorter than the largest number it counts with. -/
def Commit.Small (c : Commit) : Prop :=
  c.state.length < UInt64.size ∧ ∀ record, c.undo = some record → record.undo.length < UInt64.size

namespace FileStore

/-- Visits to the store in the folder at a path. -/
def visit (path : String) : Visit → FileStore × FileTree → StoreAnswer × (FileStore × FileTree)
  | .call c, (s, t) =>
    let (answer, t) := s.store.answer c t
    (answer, (s, t))
  | .reopen, (s, t) =>
    match open? path t with
    | (.ok s, t) => (.opened, (s, t))
    | (.error e, t) => (.failed e, (s, t))

/-- No current state and no undo record; there may be other files. -/
structure Fresh (s : FileStore) (t : FileTree) : Prop where
  current : t.node? s.currentPath = none
  records : ∀ name height, undoHeight? name = some height →
    t.node? (s.base ++ [undoFolder] ++ [name]) = none

/-- The files hold what the store in memory holds, and all folders of `ground` are still there. -/
structure Mirrors (s : FileStore) (ground t : FileTree) (m : MemoryStore) : Prop where
  once : (t.nodes.map Prod.fst).Nodup
  keeps : Keeps ground t
  current : t.node? s.currentPath = m.current.map fun stored => .file stored.encode
  record : ∀ tip, t.node? (s.undoPath tip) = (m.undo? tip).map fun record => .file record.encode
  named : ∀ name height, undoHeight? name = some height →
    t.node? (s.base ++ [undoFolder] ++ [name]) ≠ none → ∃ tip, name = undoName tip
  ordered : MemoryStore.Ordered m.journal
  currentSmall : ∀ stored, m.current = some stored → stored.state.length < UInt64.size
  recordSmall : ∀ tip record, m.undo? tip = some record → record.undo.length < UInt64.size
  currentNear : m.current ≠ none → s.reaches currentName = true
  recordNear : ∀ tip, m.undo? tip ≠ none → s.reaches (undoFolder ++ "/" ++ undoName tip) = true

variable {s : FileStore} {ground t t' : FileTree} {m : MemoryStore}

theorem Fresh.mirrors (h : s.Fresh t) (once : (t.nodes.map Prod.fst).Nodup) :
    s.Mirrors t t .empty where
  once := once
  keeps := fun p hp => hp
  current := h.current
  record tip := by
    rw [undoPath_eq, h.records _ _ (undoHeight?_undoName tip)]
    rfl
  named name height hheight hnode := absurd (h.records name height hheight) hnode
  ordered := List.Pairwise.nil
  currentSmall _ hm := nomatch hm
  recordSmall _ _ hm := nomatch hm
  currentNear hm := absurd rfl hm
  recordNear _ hm := absurd rfl hm

theorem readRecord_eq {α : Type} {path : Path} {name : String} {encode : α → Bytes}
    {decode? : Bytes → Option α} {kept : Option α}
    (hnode : t.node? path = kept.map fun a => .file (encode a))
    (hnear : kept ≠ none → s.reaches name = true)
    (hdecode : ∀ a, kept = some a → decode? (encode a) = some a) :
    s.readRecord t path name decode? = .ok kept := by
  unfold readRecord
  cases kept with
  | none =>
    rw [hnode]
    simp
  | some a =>
    rw [if_pos (hnear (by simp)), hnode]
    simp only [Option.map_some, hdecode a rfl]

namespace Mirrors

theorem load_eq (h : s.Mirrors ground t m) : s.load t = .ok m.current :=
  readRecord_eq h.current h.currentNear fun stored hm => StoredState.decode?_encode (h.currentSmall stored hm)

theorem undo_eq (h : s.Mirrors ground t m) (tip : Tip) : s.undo tip t = .ok (m.undo? tip) :=
  readRecord_eq (h.record tip) (h.recordNear tip) fun record hm =>
    UndoRecord.decode?_encode (h.recordSmall tip record hm)

/-- The file names of the records in memory. -/
def listed (m : MemoryStore) : List (UInt64 × String) :=
  (m.journal.map Prod.fst).map fun tip => (tip.height, undoName tip)

theorem mem_listed (h : s.Mirrors ground t m) {entries : List (UInt64 × String)}
    (he : s.undoEntries t = .ok entries) (entry : UInt64 × String) :
    entry ∈ entries ↔ entry ∈ listed m := by
  obtain ⟨height, name⟩ := entry
  have hkept (tip : Tip) : t.node? (s.base ++ [undoFolder] ++ [undoName tip]) ≠ none ↔
      tip ∈ m.journal.map Prod.fst := by
    rw [← undoPath_eq, h.record, ← MemoryStore.undo?_isSome_iff, Option.isSome_iff_ne_none]
    simp
  rw [mem_undoEntries he, listed, List.mem_map]
  constructor
  · rintro ⟨hnode, hheight⟩
    obtain ⟨tip, rfl⟩ := h.named name height hheight hnode
    rw [undoHeight?_undoName] at hheight
    cases hheight
    exact ⟨tip, (hkept tip).mp hnode, rfl⟩
  · rintro ⟨tip, htip, heq⟩
    cases heq
    exact ⟨(hkept tip).mpr htip, undoHeight?_undoName tip⟩

theorem perm_listed (h : s.Mirrors ground t m) {entries : List (UInt64 × String)}
    (he : s.undoEntries t = .ok entries) : entries.Perm (listed m) := by
  refine (List.perm_ext_iff_of_nodup (nodup_undoEntries h.once he) ?_).mpr (h.mem_listed he)
  refine h.ordered.nodup.map ?_
  intro a b heq
  exact undoName_injective (Prod.ext_iff.mp heq).2

theorem heights_eq (h : s.Mirrors ground t m) {heights : List UInt64}
    (hh : s.heights t = .ok heights) : heights = m.heights := by
  unfold FileStore.heights at hh
  cases he : s.undoEntries t with
  | error e =>
    rw [he] at hh
    cases hh
  | ok entries =>
    rw [he] at hh
    cases hh
    have hperm : (entries.map Prod.fst).Perm m.heights := by
      have hmap := (h.perm_listed he).map Prod.fst
      rwa [listed, List.map_map, List.map_map] at hmap
    refine hperm.eq_of_pairwise (fun a b _ _ hab hba => UInt64.le_antisymm hab hba) ?_ h.ordered.heights
    exact List.pairwise_map.mpr (sorted_undoEntries he)

theorem countBelow_eq (h : s.Mirrors ground t m) {entries : List (UInt64 × String)}
    (he : s.undoEntries t = .ok entries) (height : UInt64) :
    (entries.filter fun entry => entry.1 < height).length = m.countBelow height := by
  rw [← List.countP_eq_length_filter, (h.perm_listed he).countP_eq, listed, List.countP_map,
    List.countP_map]
  rfl

/-- In the folder of the records, a commit leaves its own record and those from before. -/
theorem recorded_undoPath (h : s.Mirrors ground t m) (c : Commit) (tip : Tip) :
    s.recorded c t (s.undoPath tip) =
      ((m.commit c).undo? tip).map fun record => .file record.encode := by
  rw [MemoryStore.undo?_commit]
  unfold recorded Holdings.commit
  cases c.undo with
  | none => exact h.record tip
  | some record =>
    simp only [FileTree.replaced]
    by_cases htip : tip = c.tip
    · rw [if_pos (congrArg s.undoPath htip), if_pos htip]
      rfl
    · have hne : s.undoPath tip ≠ s.undoPath c.tip := fun heq => htip (undoPath_injective heq)
      rw [if_neg hne, if_neg beside_undoPath_ne.symm, if_neg htip]
      exact h.record tip

theorem named_of_recorded (h : s.Mirrors ground t m) {c : Commit} {name : String} {height : UInt64}
    (hheight : undoHeight? name = some height)
    (hsome : s.recorded c t (s.base ++ [undoFolder] ++ [name]) ≠ none) :
    ∃ tip, name = undoName tip := by
  unfold recorded at hsome
  cases hu : c.undo with
  | none =>
    rw [hu] at hsome
    exact h.named name height hheight hsome
  | some record =>
    rw [hu] at hsome
    simp only [FileTree.replaced] at hsome
    split at hsome
    · next hq =>
      rw [undoPath_eq] at hq
      exact ⟨c.tip, by simpa using hq⟩
    · split at hsome
      · exact absurd rfl hsome
      · exact h.named name height hheight hsome

theorem commit (h : s.Mirrors ground t m) {c : Commit} (hsmall : c.Small)
    (hc : s.commit c t = (.ok (), t')) : s.Mirrors ground t' (m.commit c) := by
  obtain ⟨hnode, hkeeps, honce, hreaches⟩ := commit_spec hc
  have hfolder (name : String) : t'.node? (s.base ++ [undoFolder] ++ [name]) =
      s.recorded c t (s.base ++ [undoFolder] ++ [name]) := by
    rw [hnode, if_neg (inUndoFolder_ne_currentPath name),
      if_neg (beside_currentPath_ne_inUndoFolder name).symm]
  have hcases {tip : Tip} {record : UndoRecord} (hr : (m.commit c).undo? tip = some record) :
      (tip = c.tip ∧ c.undo = some record) ∨ m.undo? tip = some record :=
    Holdings.record_commit_cases ((MemoryStore.undo?_commit c m tip).symm.trans hr)
  refine ⟨honce h.once, h.keeps.trans hkeeps, ?_, fun tip => ?_, fun name height hheight hsome => ?_,
    h.ordered.commit c, ?_, fun tip record hr => ?_, fun _ => reaches_current hreaches,
    fun tip hsome => ?_⟩
  · rw [hnode, if_pos rfl]
    rfl
  · rw [undoPath_eq, hfolder, ← undoPath_eq]
    exact h.recorded_undoPath c tip
  · rw [hfolder] at hsome
    exact h.named_of_recorded hheight hsome
  · rintro stored ⟨⟩
    exact hsmall.1
  · rcases hcases hr with ⟨_, hu⟩ | hr
    · exact hsmall.2 record hu
    · exact h.recordSmall tip record hr
  · obtain ⟨record, hr⟩ := Option.ne_none_iff_exists'.mp hsome
    rcases hcases hr with ⟨rfl, hu⟩ | hr
    · exact reaches_undo hu hreaches
    · exact h.recordNear tip (by simp [hr])

/-- The entries below the height are those of the records below it. -/
theorem mem_entries_below (h : s.Mirrors ground t m) {entries : List (UInt64 × String)}
    (he : s.undoEntries t = .ok entries) {height : UInt64} (tip : Tip) :
    (∃ entry ∈ entries.filter fun entry => entry.1 < height,
        s.undoPath tip = s.base ++ [undoFolder] ++ [entry.2]) ↔
      tip.height < height ∧ m.undo? tip ≠ none := by
  have hkept : t.node? (s.undoPath tip) ≠ none ↔ m.undo? tip ≠ none := by
    rw [h.record tip, ne_eq, Option.map_eq_none_iff]
  rw [← hkept]
  constructor
  · rintro ⟨⟨low, name⟩, hentry, hq⟩
    obtain ⟨hm, hlow⟩ := List.mem_filter.mp hentry
    obtain ⟨hnode, hheight⟩ := (mem_undoEntries he).mp hm
    rw [undoPath_eq] at hq
    obtain rfl : undoName tip = name := by simpa using hq
    rw [undoHeight?_undoName] at hheight
    cases hheight
    exact ⟨by simpa using hlow, (undoPath_eq s tip) ▸ hnode⟩
  · rintro ⟨hlow, hsome⟩
    refine ⟨(tip.height, undoName tip), List.mem_filter.mpr ⟨?_, by simpa using hlow⟩,
      undoPath_eq s tip⟩
    rw [mem_undoEntries he, ← undoPath_eq]
    exact ⟨hsome, undoHeight?_undoName tip⟩

theorem prune (h : s.Mirrors ground t m) {height : UInt64} {count : Nat}
    (hp : s.prune height t = (.ok count, t')) :
    count = m.countBelow height ∧ s.Mirrors ground t' (m.dropBelow height) := by
  unfold FileStore.prune at hp
  cases he : s.undoEntries t with
  | error e =>
    rw [he] at hp
    cases hp
  | ok entries =>
    rw [he] at hp
    simp only [takeWhile_eq_filter (sorted_undoEntries he)] at hp
    obtain ⟨hcount, hnode, hkeeps, honce⟩ := removeAll_spec hp
    have hsub {tip : Tip} {record : UndoRecord} (hr : (m.dropBelow height).undo? tip = some record) :
        m.undo? tip = some record :=
      Holdings.record_of_dropBelow ((MemoryStore.undo?_dropBelow height m tip).symm.trans hr)
    refine ⟨by rw [hcount, h.countBelow_eq he, Nat.zero_add], ?_⟩
    refine ⟨honce h.once, h.keeps.trans hkeeps, ?_, fun tip => ?_, fun name low hheight hsome => ?_,
      h.ordered.dropBelow height, h.currentSmall,
      fun tip record hr => h.recordSmall tip record (hsub hr), h.currentNear, fun tip hsome => ?_⟩
    · rw [hnode, if_neg]
      · exact h.current
      · rintro ⟨entry, _, hq⟩
        exact inUndoFolder_ne_currentPath entry.2 hq.symm
    · rw [hnode, MemoryStore.undo?_dropBelow]
      show _ = (if tip.height < height then none else m.undo? tip).map _
      by_cases hlow : tip.height < height
      · rw [if_pos hlow]
        split
        · rfl
        · next hkept =>
          rw [h.mem_entries_below he tip, not_and_not_right] at hkept
          rw [h.record tip, hkept hlow]
      · rw [if_neg hlow, if_neg]
        · exact h.record tip
        · rw [h.mem_entries_below he tip]
          exact fun hgone => hlow hgone.1
    · rw [hnode] at hsome
      split at hsome
      · exact absurd rfl hsome
      · exact h.named name low hheight hsome
    · obtain ⟨record, hr⟩ := Option.ne_none_iff_exists'.mp hsome
      exact h.recordNear tip (by simp [hsub hr])

end Mirrors

theorem commit_error {c : Commit} {e : StoreError} (h : (s.commit c t).1 = .error e) : e = .io := by
  unfold FileStore.commit at h
  split at h
  · simp only at h
    split at h
    · cases h
    · cases h
      rfl
  · cases h
    rfl

theorem removeAll_error {folder : Path} {count : Nat} {entries : List (UInt64 × String)} {e : StoreError}
    (h : (removeAll folder count entries t).1 = .error e) : e = .io := by
  fun_induction removeAll folder count entries t with
  | case1 => cases h
  | case2 =>
    cases h
    rfl
  | case3 _ _ _ _ _ _ _ ih => exact ih h

theorem undoEntries_error {e : StoreError} (h : s.undoEntries t = .error e) : e = .io := by
  unfold undoEntries at h
  split at h
  · cases h
    rfl
  · cases h

theorem prune_error {height : UInt64} {e : StoreError} (h : (s.prune height t).1 = .error e) :
    e = .io := by
  unfold FileStore.prune at h
  split at h
  · next he =>
    cases h
    exact undoEntries_error he
  · exact removeAll_error h

theorem heights_error {e : StoreError} (h : s.heights t = .error e) : e = .io := by
  unfold FileStore.heights at h
  cases he : s.undoEntries t with
  | error e' =>
    rw [he] at h
    cases h
    exact undoEntries_error he
  | ok entries =>
    rw [he] at h
    cases h

theorem open?_again {path : String} (hopen : open? path ground = (.ok s, t)) (hkeeps : Keeps t t') :
    open? path t' = (.ok s, t') := by
  unfold open? at hopen ⊢
  cases hfirst : ground.makeFolders [] (FileTree.joinPath path undoFolder) with
  | mk target made =>
    rw [hfirst] at hopen
    cases target with
    | none => cases hopen
    | some folder =>
      cases hopen
      rw [FileTree.makeFolders_again hfirst hkeeps]

theorem sound_of_open? {path : String} (hs : ground.Sound) (hopen : open? path ground = (.ok s, t)) :
    t.Sound := by
  have hroot : ground.isFolder [] = true := rfl
  have hmade := hs.makeFolders hroot (FileTree.joinPath path undoFolder)
  unfold open? at hopen
  cases hfirst : ground.makeFolders [] (FileTree.joinPath path undoFolder) with
  | mk target made =>
    rw [hfirst] at hopen hmade
    cases target with
    | none => cases hopen
    | some folder =>
      cases hopen
      exact hmade

/-- An answer that the file system did not refuse is the one that the store in memory gives. -/
theorem Mirrors.visit {path : String} {t₀ : FileTree} (hopen : open? path t₀ = (.ok s, ground))
    (h : s.Mirrors ground t m) {v : Visit} (hsmall : ∀ c, v = .call (.commit c) → c.Small)
    (hio : (visit path v (s, t)).1 ≠ .failed .io) :
    ∃ t', visit path v (s, t) = ((MemoryStore.visit v m).1, (s, t')) ∧
      s.Mirrors ground t' (MemoryStore.visit v m).2 := by
  cases v with
  | reopen =>
    refine ⟨t, ?_, h⟩
    simp only [FileStore.visit, open?_again hopen h.keeps]
    rfl
  | call c =>
    cases c with
    | load =>
      refine ⟨t, ?_, h⟩
      simp only [FileStore.visit, Store.answer, store, h.load_eq]
      rfl
    | undo tip =>
      refine ⟨t, ?_, h⟩
      simp only [FileStore.visit, Store.answer, store, h.undo_eq]
      rfl
    | commit c =>
      obtain ⟨_, hu⟩ := StoreAnswer.of_eq_ok hio fun e he => commit_error he
      obtain ⟨t', hok⟩ : ∃ t', s.commit c t = (.ok (), t') := ⟨_, Prod.ext hu rfl⟩
      refine ⟨t', ?_, h.commit (hsmall c rfl) hok⟩
      simp only [FileStore.visit, Store.answer, store, hok]
      rfl
    | prune height =>
      obtain ⟨count, hcount⟩ := StoreAnswer.of_eq_ok hio fun e he => prune_error he
      obtain ⟨t', hok⟩ : ∃ t', s.prune height t = (.ok count, t') := ⟨_, Prod.ext hcount rfl⟩
      obtain ⟨rfl, hmirrors⟩ := h.prune hok
      refine ⟨t', ?_, hmirrors⟩
      simp only [FileStore.visit, Store.answer, store, hok]
      rfl
    | heights =>
      obtain ⟨heights, hheights⟩ := StoreAnswer.of_eq_ok hio fun e he => heights_error he
      refine ⟨t, ?_, h⟩
      simp only [FileStore.visit, Store.answer, store, hheights, h.heights_eq hheights]
      rfl

theorem Mirrors.answers {path : String} {t₀ : FileTree} (hopen : open? path t₀ = (.ok s, ground))
    (h : s.Mirrors ground t m) {visits : List Visit}
    (hsmall : ∀ c, .call (.commit c) ∈ visits → c.Small)
    (hio : ∀ answer ∈ (answers (FileStore.visit path) visits (s, t)).1, answer ≠ .failed .io) :
    ∃ t', ChainFollower.answers (FileStore.visit path) visits (s, t) =
      ((ChainFollower.answers MemoryStore.visit visits m).1, (s, t')) ∧
      s.Mirrors ground t' (ChainFollower.answers MemoryStore.visit visits m).2 := by
  induction visits generalizing t m with
  | nil => exact ⟨t, rfl, h⟩
  | cons v vs ih =>
    unfold ChainFollower.answers at hio
    obtain ⟨next, hv, hnext⟩ := h.visit hopen
      (fun c hc => hsmall c (hc ▸ List.mem_cons_self)) (hio _ List.mem_cons_self)
    rw [hv] at hio
    obtain ⟨t', hvs, hend⟩ := ih hnext (fun c hc => hsmall c (List.mem_cons_of_mem v hc))
      fun answer ha => hio answer (List.mem_cons_of_mem _ ha)
    refine ⟨t', ?_, hend⟩
    unfold ChainFollower.answers
    rw [hv]
    simp only [hvs]

/-- Whatever comes of it, pruning leaves everything alone that is no record by its name. -/
theorem node?_prune (s : FileStore) (t : FileTree) (height : UInt64) {q : Path}
    (hq : ∀ name, q = s.base ++ [undoFolder] ++ [name] → undoHeight? name = none) :
    (s.prune height t).2.node? q = t.node? q := by
  unfold FileStore.prune
  split
  · rfl
  · next entries he =>
    refine node?_removeAll fun entry hentry heq => ?_
    have hm := (mem_undoEntries he).mp ((List.takeWhile_sublist _).subset hentry)
    rw [hq entry.2 heq] at hm
    cases hm.2

end FileStore

end ChainFollower
