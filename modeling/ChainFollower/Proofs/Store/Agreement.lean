import ChainFollower.Proofs.Store.Refinement

namespace ChainFollower

open FileTree (Path)

namespace FileStore

variable {s : FileStore} {ground t t' : FileTree} {m : MemoryStore}

/-- Both folders are there, and no folder stands where a file belongs. -/
structure Roomy (s : FileStore) (t : FileTree) : Prop where
  base : t.isFolder s.base = true
  undo : t.isFolder (s.base ++ [undoFolder]) = true
  current : t.isFolder s.currentPath = false
  besideCurrent : t.isFolder (beside s.currentPath) = false
  files : ∀ name, t.isFolder (s.base ++ [undoFolder] ++ [name]) = false

theorem Roomy.of_folders (h : s.Roomy t) (hfolders : ∀ q, t'.isFolder q = t.isFolder q) :
    s.Roomy t' where
  base := (hfolders _).trans h.base
  undo := (hfolders _).trans h.undo
  current := (hfolders _).trans h.current
  besideCurrent := (hfolders _).trans h.besideCurrent
  files name := (hfolders _).trans (h.files name)

theorem isFolder_eq_of_keeps (hkeeps : Keeps t t')
    (hnew : ∀ q, t'.node? q = some .folder → t.node? q = some .folder) (q : Path) :
    t'.isFolder q = t.isFolder q := by
  rw [Bool.eq_iff_iff]
  refine ⟨fun hq => ?_, hkeeps q⟩
  rw [FileTree.isFolder_iff] at hq ⊢
  exact hnew q hq

theorem replaced_eq_folder {path q : Path} {content : Bytes}
    (h : t.replaced path content q = some .folder) : t.node? q = some .folder := by
  unfold FileTree.replaced at h
  split at h
  · cases h
  · split at h
    · cases h
    · exact h

theorem isFolder_replace {folder : Path} {name : String} {content : Bytes}
    (h : FileOp.runAll (replace (folder ++ [name]) content) t = (true, t')) (q : Path) :
    t'.isFolder q = t.isFolder q := by
  obtain ⟨hnode, hkeeps, _⟩ := replace_spec h
  refine isFolder_eq_of_keeps hkeeps (fun q hq => ?_) q
  rw [hnode] at hq
  exact replaced_eq_folder hq

theorem write?_runs (path : Path) (content : Bytes) (hpath : path ≠ [])
    (hparent : t.isFolder (FileTree.parent path) = true) (hfree : t.isFolder path = false) :
    t.write? path content = some (t.put path (.file content)) := by
  have hempty : path.isEmpty = false := by simpa using hpath
  rw [FileTree.write?, hempty, hparent, hfree]
  rfl

theorem replace_runs {folder : Path} {name : String} (hfolder : t.isFolder folder = true)
    (hfile : t.isFolder (folder ++ [name]) = false)
    (hbeside : t.isFolder (folder ++ [name ++ ".tmp"]) = false) (content : Bytes) :
    ∃ t', FileOp.runAll (replace (folder ++ [name]) content) t = (true, t') := by
  have hne : folder ++ [name ++ ".tmp"] ≠ [] := by simp
  have hfolderNe : folder ≠ folder ++ [name ++ ".tmp"] := by simp
  have hnameNe : folder ++ [name] ≠ folder ++ [name ++ ".tmp"] := by
    intro heq
    exact ne_append_tmp name (by simpa using heq)
  have hwrite := write?_runs _ content hne (by rwa [FileTree.parent, List.dropLast_concat]) hbeside
  have hread : (t.put (folder ++ [name ++ ".tmp"]) (.file content)).read? (folder ++ [name ++ ".tmp"]) =
      some content := by
    rw [FileTree.read?, FileTree.node?_put hne, if_pos rfl]
  have hafter (q : Path) (hq : q ≠ folder ++ [name ++ ".tmp"]) :
      ((t.put (folder ++ [name ++ ".tmp"]) (.file content)).erase (folder ++ [name ++ ".tmp"])).isFolder q =
        t.isFolder q := by
    rw [FileTree.isFolder, FileTree.node?_erase hne, if_neg hq, FileTree.node?_put hne, if_neg hq]
    rfl
  have hmove := write?_runs (folder ++ [name]) content (by simp)
    (by rw [FileTree.parent, List.dropLast_concat, hafter folder hfolderNe, hfolder])
    (by rw [hafter _ hnameNe, hfile])
  have hrun : FileOp.runAll (replace (folder ++ [name]) content) t =
      (true, ((t.put (folder ++ [name ++ ".tmp"]) (.file content)).erase (folder ++ [name ++ ".tmp"])).put
        (folder ++ [name]) (.file content)) := by
    simp only [replace, beside_concat, FileOp.runAll, FileOp.run?, hwrite, FileTree.rename?, hread, hmove]
  exact ⟨_, hrun⟩

/-- The first part of a commit: the undo record, if there is one. -/
theorem Roomy.record_runs (h : s.Roomy t) (tip : Tip) (undo : Option UndoRecord) :
    ∃ between, FileOp.runAll (match undo with
      | some record => replace (s.undoPath tip) record.encode
      | none => []) t = (true, between) ∧ ∀ q, between.isFolder q = t.isFolder q := by
  cases undo with
  | none => exact ⟨t, rfl, fun q => rfl⟩
  | some record =>
    simp only [undoPath_eq]
    obtain ⟨between, hrun⟩ := replace_runs h.undo (h.files (undoName tip))
      (h.files (undoName tip ++ ".tmp")) record.encode
    exact ⟨between, hrun, isFolder_replace hrun⟩

theorem Roomy.commit (h : s.Roomy t) {c : Commit} (hnear : s.reaches (firstPath c) = true) :
    ∃ t', s.commit c t = (.ok (), t') ∧ s.Roomy t' := by
  obtain ⟨between, hfirst, hfolders⟩ := h.record_runs c.tip c.undo
  have hmiddle := h.of_folders hfolders
  obtain ⟨t', hsecond⟩ := replace_runs hmiddle.base hmiddle.current
    (by have hbeside := hmiddle.besideCurrent; rwa [currentPath, beside_concat] at hbeside) c.stored.encode
  have hrun : FileOp.runAll (s.commitOps c) t = (true, t') :=
    (FileOp.runAll_append _ _ _ _).mpr ⟨between, hfirst, hsecond⟩
  refine ⟨t', ?_, hmiddle.of_folders (isFolder_replace hsecond)⟩
  rw [FileStore.commit, if_pos hnear, hrun]
  rfl

theorem removeAll_runs (t : FileTree) (folder : Path) (count : Nat) {entries : List (UInt64 × String)}
    (hnames : entries.Pairwise fun a b => a.2 ≠ b.2)
    (hfiles : ∀ entry ∈ entries, ∃ content, t.node? (folder ++ [entry.2]) = some (.file content)) :
    ∃ n t', removeAll folder count entries t = (.ok n, t') := by
  induction entries generalizing t count with
  | nil => exact ⟨count, t, rfl⟩
  | cons entry rest ih =>
    obtain ⟨height, name⟩ := entry
    obtain ⟨hfirst, hrest⟩ := List.pairwise_cons.mp hnames
    obtain ⟨content, hfile⟩ := hfiles (height, name) List.mem_cons_self
    have hne : folder ++ [name] ≠ [] := by simp
    have hremove : t.remove? (folder ++ [name]) = some (t.erase (folder ++ [name])) := by
      simp only at hfile
      rw [FileTree.remove?, hfile]
    obtain ⟨n, t', hrun⟩ := ih (t.erase (folder ++ [name])) (count + 1) hrest
      fun other hother => by
        have hother' : folder ++ [other.2] ≠ folder ++ [name] := by
          intro heq
          exact hfirst other hother (by simpa using heq.symm)
        rw [FileTree.node?_erase hne, if_neg hother']
        exact hfiles other (List.mem_cons_of_mem _ hother)
    exact ⟨n, t', by rw [removeAll, hremove]; exact hrun⟩

theorem Roomy.undoEntries (h : s.Roomy t) : ∃ entries, s.undoEntries t = .ok entries := by
  unfold FileStore.undoEntries FileTree.list?
  rw [if_pos h.undo]
  exact ⟨_, rfl⟩

theorem Roomy.prune (h : s.Roomy t) (once : (t.nodes.map Prod.fst).Nodup) (height : UInt64) :
    ∃ n t', s.prune height t = (.ok n, t') ∧ s.Roomy t' := by
  obtain ⟨entries, he⟩ := h.undoEntries
  have hnames : entries.Pairwise fun a b => a.2 ≠ b.2 := by
    refine (nodup_undoEntries once he).imp_of_mem ?_
    intro a b ha hb hne heq
    have hheight : some a.1 = some b.1 := by
      rw [← ((mem_undoEntries he).mp ha).2, ← ((mem_undoEntries he).mp hb).2, heq]
    exact hne (Prod.ext (Option.some.inj hheight) heq)
  have hsub : (entries.takeWhile fun entry => decide (entry.1 < height)).Sublist entries :=
    List.takeWhile_sublist _
  obtain ⟨n, t', hrun⟩ := removeAll_runs t (s.base ++ [undoFolder]) 0
    (hnames.sublist hsub) fun entry hentry => by
      have hnode := ((mem_undoEntries he).mp (hsub.subset hentry)).1
      have hfree := h.files entry.2
      cases hn : t.node? (s.base ++ [undoFolder] ++ [entry.2]) with
      | none => exact absurd hn hnode
      | some node =>
        cases node with
        | file content => exact ⟨content, rfl⟩
        | folder =>
          rw [Bool.eq_false_iff, ne_eq, FileTree.isFolder_iff] at hfree
          exact absurd hn hfree
  refine ⟨n, t', by rw [FileStore.prune, he]; exact hrun, ?_⟩
  obtain ⟨_, hnode, hkeeps, _⟩ := removeAll_spec hrun
  refine h.of_folders (isFolder_eq_of_keeps hkeeps fun q hq => ?_)
  rw [hnode] at hq
  split at hq
  · cases hq
  · exact hq

theorem Roomy.visit {path : String} {t₀ : FileTree} (hopen : open? path t₀ = (.ok s, ground))
    (hroomy : s.Roomy t) (h : s.Mirrors ground t m) {v : Visit}
    (hnear : ∀ c, v = .call (.commit c) → s.reaches (firstPath c) = true) :
    ∃ answer t', visit path v (s, t) = (answer, (s, t')) ∧ answer ≠ .failed .io ∧ s.Roomy t' := by
  cases v with
  | reopen =>
    refine ⟨.opened, t, ?_, by simp, hroomy⟩
    simp only [FileStore.visit, open?_again hopen h.keeps]
  | call c =>
    cases c with
    | load =>
      refine ⟨.current m.current, t, ?_, by simp, hroomy⟩
      simp only [FileStore.visit, Store.answer, store, h.load_eq]
      rfl
    | undo tip =>
      refine ⟨.record (m.undo? tip), t, ?_, by simp, hroomy⟩
      simp only [FileStore.visit, Store.answer, store, h.undo_eq]
      rfl
    | commit c =>
      obtain ⟨t', hrun, hroomy'⟩ := hroomy.commit (hnear c rfl)
      refine ⟨.committed, t', ?_, by simp, hroomy'⟩
      simp only [FileStore.visit, Store.answer, store, hrun]
      rfl
    | prune height =>
      obtain ⟨n, t', hrun, hroomy'⟩ := hroomy.prune h.once height
      refine ⟨.pruned n, t', ?_, by simp, hroomy'⟩
      simp only [FileStore.visit, Store.answer, store, hrun]
      rfl
    | heights =>
      obtain ⟨entries, he⟩ := hroomy.undoEntries
      refine ⟨.heights (entries.map Prod.fst), t, ?_, by simp, hroomy⟩
      simp only [FileStore.visit, Store.answer, store, FileStore.heights, he]
      rfl

theorem Roomy.answers {path : String} {t₀ : FileTree} (hopen : open? path t₀ = (.ok s, ground))
    (hroomy : s.Roomy t) (h : s.Mirrors ground t m) {visits : List Visit}
    (hsmall : ∀ c, .call (.commit c) ∈ visits → c.Small)
    (hnear : ∀ c, .call (.commit c) ∈ visits → s.reaches (firstPath c) = true) :
    ∀ answer ∈ (ChainFollower.answers (FileStore.visit path) visits (s, t)).1, answer ≠ .failed .io := by
  induction visits generalizing t m with
  | nil => exact nofun
  | cons v vs ih =>
    obtain ⟨first, t', hv, hio, hnext⟩ := hroomy.visit hopen h (v := v) fun c hc => hnear c (hc ▸ List.mem_cons_self)
    obtain ⟨t'', hmirror, hmirrors⟩ := h.visit hopen (fun c hc => hsmall c (hc ▸ List.mem_cons_self))
      (show (FileStore.visit path v (s, t)).1 ≠ .failed .io by rwa [hv])
    rw [hmirror] at hv
    cases hv
    unfold ChainFollower.answers
    rw [hmirror]
    intro answer hanswer
    rcases List.mem_cons.mp hanswer with rfl | hm
    · exact hio
    · exact ih hnext hmirrors (fun c hc => hsmall c (List.mem_cons_of_mem v hc))
        (fun c hc => hnear c (List.mem_cons_of_mem v hc)) answer hm

/-- Where no folder stands in the way and no path is too long, a fresh store is never refused. -/
theorem Roomy.never_refused {path : String} {t₀ : FileTree} (hsound : t₀.Sound)
    (hopen : open? path t₀ = (.ok s, t)) (hfresh : s.Fresh t) (hroomy : s.Roomy t) {visits : List Visit}
    (hsmall : ∀ c, .call (.commit c) ∈ visits → c.Small)
    (hnear : ∀ c, .call (.commit c) ∈ visits → s.reaches (firstPath c) = true) :
    ∀ answer ∈ (ChainFollower.answers (FileStore.visit path) visits (s, t)).1, answer ≠ .failed .io :=
  hroomy.answers hopen (hfresh.mirrors (sound_of_open? hsound hopen).once) hsmall hnear

/-- A folder with the remains of a broken commit and a file of another kind. -/
def littered : FileTree :=
  ⟨[(["d", "undo", "notes"], .file [1]), (["d", "undo"], .folder), (["d", "current.bin.tmp"], .file []),
    (["d"], .folder)]⟩

/-- One block is committed, read back after the folder was opened again, and pruned. -/
def oneBlockStay : List Visit :=
  [.call (.commit (.forward ⟨1, .zero⟩ [7] .zero [8])), .reopen, .call .load, .call (.undo ⟨1, .zero⟩),
    .call .heights, .call (.prune 2), .call .heights]

theorem open?_littered : open? "d" littered = (.ok ⟨["d"], "d"⟩, littered) := by
  have hstore : (open? "d" littered).1.toOption = some ⟨["d"], "d"⟩ := by decide +kernel
  have hnodes : (open? "d" littered).2.nodes = littered.nodes := by decide +kernel
  generalize open? "d" littered = r at hstore hnodes
  obtain ⟨e | store, ⟨nodes⟩⟩ := r
  · cases hstore
  · cases hstore
    exact Prod.ext rfl (congrArg FileTree.mk hnodes)

theorem fresh_littered : Fresh ⟨["d"], "d"⟩ littered := by
  refine ⟨by decide, ?_⟩
  intro name height hheight
  rw [FileTree.node?_eq_none_iff (by simp)]
  intro hm
  have hname : name = "notes" := by simpa [littered, undoFolder] using hm
  rw [hname] at hheight
  have hnone : undoHeight? "notes" = none := by decide +kernel
  rw [hnone] at hheight
  cases hheight

theorem roomy_littered : Roomy ⟨["d"], "d"⟩ littered where
  base := by decide
  undo := by decide
  current := by decide
  besideCurrent := by decide
  files name := by
    rw [Bool.eq_false_iff, ne_eq, FileTree.isFolder_iff]
    simp only [littered, undoFolder, FileTree.node?, List.cons_append, List.nil_append, List.isEmpty_cons,
      Bool.false_eq_true, if_false, lookup_cons_if]
    by_cases hname : name = "notes" <;> simp [hname]

/-- As long as the file system does not refuse, a fresh store in a folder gives the answers of a store in
memory, over every sequence of calls and openings, and at any time pruning leaves everything alone that
is no record by its name. -/
theorem answers_eq_memory {path : String} {t₀ t : FileTree} {s : FileStore} (hsound : t₀.Sound)
    (hopen : open? path t₀ = (.ok s, t)) (hfresh : s.Fresh t) {visits : List Visit}
    (hsmall : ∀ c, .call (.commit c) ∈ visits → c.Small)
    (hio : ∀ answer ∈ (answers (visit path) visits (s, t)).1, answer ≠ .failed .io) :
    (answers (visit path) visits (s, t)).1 = (answers MemoryStore.visit visits .empty).1 ∧
      (answers (visit path) visits (s, t)).2.1 = s ∧
      ∀ height q, (∀ name, q = s.base ++ [undoFolder] ++ [name] → undoHeight? name = none) →
        (s.prune height (answers (visit path) visits (s, t)).2.2).2.node? q =
          (answers (visit path) visits (s, t)).2.2.node? q := by
  have hstart := hfresh.mirrors (sound_of_open? hsound hopen).once
  obtain ⟨t', hrun, _⟩ := hstart.answers hopen hsmall hio
  rw [hrun]
  exact ⟨rfl, rfl, fun height q hq => node?_prune s t' height hq⟩

theorem answers_eq_memory_littered :
    (answers (visit "d") oneBlockStay (⟨["d"], "d"⟩, littered)).1 =
      (answers MemoryStore.visit oneBlockStay .empty).1 := by
  have hone (c : Commit) (hc : Visit.call (.commit c) ∈ oneBlockStay) : c = .forward ⟨1, .zero⟩ [7] .zero [8] := by
    simpa [oneBlockStay] using hc
  have hsmall : ∀ c, Visit.call (.commit c) ∈ oneBlockStay → c.Small := by
    intro c hc
    rw [hone c hc]
    exact ⟨by decide, fun record hr => by cases hr; decide⟩
  have hnear : ∀ c, Visit.call (.commit c) ∈ oneBlockStay → reaches ⟨["d"], "d"⟩ (firstPath c) = true := by
    intro c hc
    rw [hone c hc]
    decide +kernel
  have hsound : littered.Sound := ⟨by decide, by decide⟩
  exact (answers_eq_memory hsound open?_littered fresh_littered hsmall
    (roomy_littered.never_refused hsound open?_littered fresh_littered hsmall hnear)).1

end FileStore

end ChainFollower
