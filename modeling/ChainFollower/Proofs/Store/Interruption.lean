import ChainFollower.Proofs.Store.Agreement

namespace ChainFollower

open FileTree (Path)

namespace FileTree

variable {t t' t'' : FileTree} {p q : Path} {content : Bytes} {ps qs : List Path}

theorem write?_eq_some_iff :
    t.write? p content = some t' ↔
      p ≠ [] ∧ t.isFolder (parent p) = true ∧ t.isFolder p = false ∧ t' = t.put p (.file content) := by
  unfold write?
  split
  · next hc =>
    simp only [Bool.or_eq_true, Bool.not_eq_true', List.isEmpty_iff] at hc
    refine iff_of_false nofun ?_
    rintro ⟨hp, hparent, hfree, -⟩
    rcases hc with (hnil | hnone) | hfolder
    · exact hp hnil
    · rw [hparent] at hnone
      cases hnone
    · rw [hfree] at hfolder
      cases hfolder
  · next hc =>
    simp only [Bool.or_eq_true, Bool.not_eq_true', not_or, List.isEmpty_iff, Bool.not_eq_true,
      Bool.not_eq_false] at hc
    simp only [hc, Option.some_inj, ne_eq, not_false_eq_true, true_and, eq_comm]

theorem filter_erase (t : FileTree) (p : Path) :
    ((t.erase p).nodes.filter fun entry => entry.1 ∉ [p]) = t.nodes.filter fun entry => entry.1 ∉ [p] := by
  rw [erase, List.filter_filter]
  refine List.filter_congr fun entry _ => ?_
  by_cases hentry : entry.1 = p <;> simp [hentry]

theorem erase_put (t : FileTree) (p : Path) (node : Node) : (t.put p node).erase p = t.erase p := by
  simp [erase, put]

theorem filter_off {nodes : List (Path × Node)} {ps qs rs : List Path}
    (h : ∀ p, p ∈ rs ↔ p ∈ ps ∨ p ∈ qs) :
    ((nodes.filter fun entry => entry.1 ∉ ps).filter fun entry => entry.1 ∉ qs) =
      nodes.filter fun entry => entry.1 ∉ rs := by
  rw [List.filter_filter]
  refine List.filter_congr fun entry _ => ?_
  simp only [h, ← Bool.decide_and, not_or, and_comm]

/-- The two have the same nodes but at some paths, and the same folders. -/
structure EqOff (ps : List Path) (t t' : FileTree) : Prop where
  others : (t'.nodes.filter fun entry => entry.1 ∉ ps) = t.nodes.filter fun entry => entry.1 ∉ ps
  folders : ∀ q, t'.isFolder q = t.isFolder q

namespace EqOff

theorem refl (ps : List Path) (t : FileTree) : EqOff ps t t := ⟨rfl, fun _ => rfl⟩

theorem symm (h : EqOff ps t t') : EqOff ps t' t :=
  ⟨h.others.symm, fun q => (h.folders q).symm⟩

theorem trans (h : EqOff ps t t') (h' : EqOff ps t' t'') : EqOff ps t t'' where
  others := h'.others.trans h.others
  folders q := (h'.folders q).trans (h.folders q)

theorem mono (h : EqOff ps t t') (hsub : ∀ p ∈ ps, p ∈ qs) : EqOff qs t t' := by
  have hqs (p : Path) : p ∈ qs ↔ p ∈ ps ∨ p ∈ qs := by
    constructor
    · exact Or.inr
    · exact fun hp => hp.elim (hsub p) id
  refine ⟨?_, h.folders⟩
  rw [← filter_off hqs, h.others, filter_off hqs]

theorem eq_of_nil (h : EqOff [] t t') : t' = t := by
  have hnodes : t'.nodes = t.nodes := by simpa using h.others
  exact congrArg FileTree.mk hnodes

theorem keeps (h : EqOff ps t t') : FileStore.Keeps t t' :=
  fun q hq => (h.folders q).trans hq

theorem node?_eq (h : EqOff ps t t') (hq : q ∉ ps) : t'.node? q = t.node? q := by
  have hlookup (nodes : List (Path × Node)) :
      (nodes.filter fun entry => entry.1 ∉ ps).lookup q = nodes.lookup q :=
    (lookup_filter_key (fun p => decide (p ∉ ps)) nodes q).trans (if_pos (decide_eq_true hq))
  by_cases hnil : q = []
  · rw [hnil, node?_nil, node?_nil]
  · rw [node?_of_ne_nil hnil, node?_of_ne_nil hnil, ← hlookup t'.nodes, h.others, hlookup]

theorem put (hp : p ≠ []) (hfree : t.isFolder p = false) (content : Bytes) :
    EqOff [p] t (t.put p (.file content)) := by
  constructor
  · rw [FileTree.put, List.filter_cons_of_neg (by simp)]
    exact filter_erase t p
  · intro q
    rw [isFolder, node?_put hp]
    split
    · next hq => rw [hq, hfree]; rfl
    · rfl

theorem erase (hp : p ≠ []) (hfree : t.isFolder p = false) : EqOff [p] t (t.erase p) := by
  refine ⟨filter_erase t p, ?_⟩
  · intro q
    rw [isFolder, node?_erase hp]
    split
    · next hq => rw [hq, hfree]; rfl
    · rfl

theorem write? (h : t.write? p content = some t') : EqOff [p] t t' := by
  obtain ⟨hp, hfree, rfl⟩ := write?_eq_some h
  exact .put hp hfree content

theorem rename? (h : t.rename? p q = some t') : EqOff [p, q] t t' := by
  obtain ⟨content, hnode, hq, hfree, rfl⟩ := rename?_eq_some h
  have hp : p ≠ [] := by
    rintro rfl
    cases hnode
  have hfile : t.isFolder p = false := by rw [isFolder, hnode]; rfl
  exact ((EqOff.erase hp hfile).mono (by simp)).trans ((EqOff.put hq hfree content).mono (by simp))

end EqOff

end FileTree

namespace FileOp

variable {t t' : FileTree} {ops front back : List FileOp} {op : FileOp} {whole : Bool} {ps : List Path}

/-- How steps may come out where any of them may fail, or the run may stop before it: whether the last one
was done, and what is there then. Of a write that was not done, a front of the content may be there. -/
inductive Runs : List FileOp → FileTree → Bool → FileTree → Prop
  | done {t : FileTree} : Runs [] t true t
  | step {op : FileOp} {ops : List FileOp} {t between t' : FileTree} {whole : Bool} :
      op.run? t = some between → Runs ops between whole t' → Runs (op :: ops) t whole t'
  | broken {op : FileOp} {ops : List FileOp} {t : FileTree} : Runs (op :: ops) t false t
  | partly {path : Path} {content part : Bytes} {ops : List FileOp} {t t' : FileTree} :
      part <+: content → t.write? path part = some t' → Runs (.write path content :: ops) t false t'

theorem runs_runAll (ops : List FileOp) (t : FileTree) :
    Runs ops t (runAll ops t).1 (runAll ops t).2 := by
  induction ops generalizing t with
  | nil => exact .done
  | cons op ops ih =>
    unfold runAll
    split
    · next between hrun => exact .step hrun (ih between)
    · exact .broken

theorem runAll_of_runs (h : Runs ops t true t') : runAll ops t = (true, t') := by
  generalize hwhole : true = whole at h
  induction h with
  | done => rfl
  | step hrun _ ih => simpa only [runAll, hrun] using ih hwhole
  | broken => cases hwhole
  | partly => cases hwhole

/-- A run may stop after any number of steps. -/
theorem Runs.stop (h : runAll front t = (true, t')) (hback : back ≠ []) :
    Runs (front ++ back) t false t' := by
  induction front generalizing t with
  | nil =>
    cases h
    cases back with
    | nil => exact absurd rfl hback
    | cons op ops => exact .broken
  | cons op ops ih =>
    unfold runAll at h
    split at h
    · next between hrun => exact .step hrun (ih h)
    · cases h

/-- A run breaks among the first steps, or gets to the others. -/
theorem Runs.of_append (h : Runs (front ++ back) t whole t') :
    (whole = false ∧ Runs front t false t') ∨
      ∃ between, runAll front t = (true, between) ∧ Runs back between whole t' := by
  induction front generalizing t with
  | nil => exact .inr ⟨t, rfl, h⟩
  | cons op ops ih =>
    cases h with
    | step hrun hrest =>
      rcases ih hrest with ⟨hwhole, hbroken⟩ | ⟨between, hall, hback⟩
      · exact .inl ⟨hwhole, .step hrun hbroken⟩
      · refine .inr ⟨between, ?_, hback⟩
        rw [runAll, hrun]
        exact hall
    | broken => exact .inl ⟨rfl, .broken⟩
    | partly hpart hwrite => exact .inl ⟨rfl, .partly hpart hwrite⟩

/-- The paths at which a step may change something. -/
def paths : FileOp → List Path
  | write path _ => [path]
  | rename source target => [source, target]

theorem eqOff_run? (h : op.run? t = some t') : t.EqOff op.paths t' := by
  cases op with
  | write path content => exact .write? h
  | rename source target => exact .rename? h

/-- However a run comes out, it has changed nothing but files at the paths of its steps. -/
theorem Runs.eqOff (h : Runs ops t whole t') (hps : ∀ op ∈ ops, ∀ p ∈ op.paths, p ∈ ps) :
    t.EqOff ps t' := by
  induction h with
  | done => exact .refl _ _
  | step hrun _ ih =>
    exact ((eqOff_run? hrun).mono (hps _ List.mem_cons_self)).trans
      (ih fun op hop => hps op (List.mem_cons_of_mem _ hop))
  | broken => exact .refl _ _
  | partly _ hwrite => exact (FileTree.EqOff.write? hwrite).mono (hps _ List.mem_cons_self)

end FileOp

namespace FileStore

variable {s : FileStore} {t t' t₁ : FileTree} {c : Commit} {tip : Tip} {whole : Bool}
  {p path spare : Path} {content : Bytes} {ps : List Path}

theorem beside_ne_nil (path : Path) : beside path ≠ [] := by simp [beside]

theorem ne_beside (hpath : path ≠ []) : path ≠ beside path := by
  rw [← List.dropLast_append_getLast hpath, beside_concat]
  intro heq
  exact ne_append_tmp (path.getLast hpath) (by simpa using heq)

theorem parent_beside (path : Path) : FileTree.parent (beside path) = FileTree.parent path := by
  rw [FileTree.parent, beside, List.dropLast_concat]
  rfl

/-- A file that has not got to its place has changed nothing but what is beside it. -/
theorem eqOff_of_broken (h : FileOp.Runs (replace path content) t false t') :
    t.EqOff [beside path] t' := by
  cases h with
  | broken => exact .refl _ t
  | partly _ hwrite => exact .write? hwrite
  | step hwrite hrest =>
    cases hrest with
    | broken => exact .write? hwrite
    | step _ hdone => cases hdone

/-- When a file gets to its place, and what is there then: nothing that was in either place matters. -/
theorem runAll_replace_iff (hpath : path ≠ []) :
    FileOp.runAll (replace path content) t = (true, t') ↔
      (t.isFolder (FileTree.parent path) = true ∧ t.isFolder path = false ∧
        t.isFolder (beside path) = false) ∧
      t' = ⟨(path, .file content) :: t.nodes.filter fun entry => entry.1 ∉ [beside path, path]⟩ := by
  have hbeside := beside_ne_nil path
  have hread : (t.put (beside path) (.file content)).read? (beside path) = some content := by
    rw [FileTree.read?, FileTree.node?_put hbeside, if_pos rfl]
  have hnodes : (t.erase (beside path)).put path (.file content) =
      ⟨(path, .file content) :: t.nodes.filter fun entry => entry.1 ∉ [beside path, path]⟩ := by
    rw [FileTree.put, FileTree.erase, FileTree.erase, List.filter_filter]
    congr 2
    refine List.filter_congr fun entry _ => ?_
    by_cases hentry : entry.1 = path <;> by_cases hentry' : entry.1 = beside path <;>
      simp [hentry, hentry']
  have hfolders (hfree : t.isFolder (beside path) = false) (q : Path) :
      (t.erase (beside path)).isFolder q = t.isFolder q :=
    (FileTree.EqOff.erase hbeside hfree).folders q
  constructor
  · intro h
    unfold replace FileOp.runAll at h
    split at h
    · next written hwrite =>
      obtain ⟨-, hparent, hfree, rfl⟩ := FileTree.write?_eq_some_iff.mp hwrite
      rw [parent_beside] at hparent
      unfold FileOp.runAll at h
      split at h
      · next moved hmove =>
        simp only [FileOp.run?, FileTree.rename?, hread, FileTree.erase_put] at hmove
        obtain ⟨-, -, hfile, rfl⟩ := FileTree.write?_eq_some_iff.mp hmove
        cases h
        exact ⟨⟨hparent, (hfolders hfree path).symm.trans hfile, hfree⟩, hnodes⟩
      · cases h
    · cases h
  · rintro ⟨⟨hparent, hfile, hfree⟩, rfl⟩
    have hwrite := write?_runs (beside path) content hbeside ((parent_beside path).symm ▸ hparent) hfree
    have hmove := write?_runs path content hpath ((hfolders hfree _).trans hparent)
      ((hfolders hfree _).trans hfile)
    simp only [replace, FileOp.runAll, FileOp.run?, hwrite, FileTree.rename?, hread, FileTree.erase_put,
      hmove, hnodes]

theorem eqOff_of_replaced (h : FileOp.runAll (replace path content) t = (true, t')) :
    t.EqOff [beside path, path] t' := by
  have hruns := FileOp.runs_runAll (replace path content) t
  rw [h] at hruns
  refine hruns.eqOff ?_
  simp [replace, FileOp.paths]

theorem put_eqOff (hpath : path ≠ []) (h : FileOp.runAll (replace path content) t = (true, t')) :
    (t.put path (.file content)).EqOff [beside path] t' := by
  obtain ⟨⟨-, hfile, -⟩, rfl⟩ := (runAll_replace_iff hpath).mp h
  constructor
  · have hne := ne_beside hpath
    rw [FileTree.put, FileTree.erase, List.filter_cons_of_pos (by simpa using hne),
      List.filter_cons_of_pos (by simpa using hne), List.filter_filter, List.filter_filter]
    congr 1
    refine List.filter_congr fun entry _ => ?_
    by_cases hentry : entry.1 = path <;> by_cases hentry' : entry.1 = beside path <;>
      simp [hentry, hentry']
  · intro q
    exact ((eqOff_of_replaced h).folders q).trans ((FileTree.EqOff.put hpath hfile content).folders q).symm

/-- A file gets to its place as well where there was something else in the place, or beside it. -/
theorem replace_again (hpath : path ≠ []) (heq : t.EqOff (beside path :: path :: ps) t')
    (h : FileOp.runAll (replace path content) t = (true, t₁)) :
    ∃ t₂, FileOp.runAll (replace path content) t' = (true, t₂) ∧ t₁.EqOff ps t₂ := by
  obtain ⟨⟨hparent, hfile, hfree⟩, rfl⟩ := (runAll_replace_iff hpath).mp h
  have h' : FileOp.runAll (replace path content) t' = _ := (runAll_replace_iff hpath).mpr
    ⟨⟨(heq.folders _).trans hparent, (heq.folders _).trans hfile, (heq.folders _).trans hfree⟩, rfl⟩
  refine ⟨_, h', ?_, ?_⟩
  · have hplaces (p : Path) : p ∈ beside path :: path :: ps ↔ p ∈ [beside path, path] ∨ p ∈ ps := by
      simp [or_assoc]
    rw [List.filter_cons, List.filter_cons, FileTree.filter_off hplaces, FileTree.filter_off hplaces,
      heq.others]
  · intro q
    rw [(eqOff_of_replaced h').folders, heq.folders, (eqOff_of_replaced h).folders]

/-- Where the steps of a commit may change something. -/
def places (s : FileStore) (c : Commit) : List Path :=
  (match c.undo with
    | some _ => [beside (s.undoPath c.tip), s.undoPath c.tip]
    | none => []) ++ [beside s.currentPath, s.currentPath]

/-- Where a commit writes before it moves what it wrote. -/
def spares (s : FileStore) (c : Commit) : List Path :=
  [beside (s.undoPath c.tip), beside s.currentPath]

/-- How a commit may come out where any of its steps may fail, or the run may stop before it: whether it
was whole, and what is there then. -/
def Attempts (s : FileStore) (c : Commit) (t : FileTree) (whole : Bool) (t' : FileTree) : Prop :=
  if s.reaches (firstPath c) then FileOp.Runs (s.commitOps c) t whole t' else whole = false ∧ t' = t

theorem attempts_commit (s : FileStore) (c : Commit) (t : FileTree) :
    s.Attempts c t (s.commit c t).1.isOk (s.commit c t).2 := by
  unfold Attempts commit
  split
  · have hruns := FileOp.runs_runAll (s.commitOps c) t
    generalize FileOp.runAll (s.commitOps c) t = ran at hruns
    obtain ⟨whole, t'⟩ := ran
    cases whole <;> exact hruns
  · exact ⟨rfl, rfl⟩

theorem currentPath_ne_nil (s : FileStore) : s.currentPath ≠ [] := by simp [currentPath]

theorem undoPath_ne_nil (s : FileStore) (tip : Tip) : s.undoPath tip ≠ [] := by simp [undoPath]

theorem Attempts.eqOff (h : s.Attempts c t whole t') : t.EqOff (s.places c) t' := by
  unfold Attempts at h
  split at h
  · refine h.eqOff ?_
    unfold commitOps places
    cases c.undo <;> simp [replace, FileOp.paths]
  · rw [h.2]
    exact .refl _ t

theorem commit_eq_ok_iff :
    s.commit c t = (.ok (), t') ↔
      s.reaches (firstPath c) = true ∧ FileOp.runAll (s.commitOps c) t = (true, t') := by
  unfold commit
  split
  · next hreaches =>
    generalize FileOp.runAll (s.commitOps c) t = ran
    obtain ⟨whole, t₁⟩ := ran
    cases whole <;> simp [hreaches]
  · next hreaches => simp [hreaches]

/-- What was in the places of a commit does not matter for what it leaves. -/
theorem commit_again (heq : t.EqOff (s.places c) t') (h : s.commit c t = (.ok (), t₁)) :
    s.commit c t' = (.ok (), t₁) := by
  obtain ⟨hreaches, hrun⟩ := commit_eq_ok_iff.mp h
  obtain ⟨between, hundo, hcurrent⟩ := (FileOp.runAll_append _ _ _ _).mp hrun
  have hplaced : ∃ between', FileOp.runAll (match c.undo with
      | some record => replace (s.undoPath c.tip) record.encode
      | none => []) t' = (true, between') ∧
      between.EqOff [beside s.currentPath, s.currentPath] between' := by
    unfold places at heq
    cases hc : c.undo with
    | none =>
      rw [hc] at hundo heq
      cases hundo
      exact ⟨t', rfl, heq⟩
    | some record =>
      rw [hc] at hundo heq
      exact replace_again (undoPath_ne_nil s c.tip) heq hundo
  obtain ⟨between', hundo', heq'⟩ := hplaced
  obtain ⟨t₂, hcurrent', hsame⟩ := replace_again (currentPath_ne_nil s) heq' hcurrent
  rw [hsame.eq_of_nil] at hcurrent'
  exact commit_eq_ok_iff.mpr ⟨hreaches, (FileOp.runAll_append _ _ _ _).mpr ⟨between', hundo', hcurrent'⟩⟩

/-- What the undo folder shows after an attempt: what it showed before, or the record of the commit as
well. -/
theorem Attempts.exists_shown (h : s.Attempts c t whole t') :
    ∃ shown, (shown = t ∧ (whole = true → c.undo = none) ∨
        ∃ record, c.undo = some record ∧ s.reaches (firstPath c) = true ∧
          shown = t.put (s.undoPath c.tip) (.file record.encode)) ∧
      shown.EqOff (s.currentPath :: s.spares c) t' ∧ (whole = false → shown.EqOff (s.spares c) t') := by
  unfold Attempts at h
  split at h
  · next hreaches =>
    rcases h.of_append with ⟨rfl, hbroken⟩ | ⟨between, hundo, hcurrent⟩
    · have heq : t.EqOff (s.spares c) t' := by
        cases hc : c.undo with
        | none =>
          rw [hc] at hbroken
          cases hbroken
        | some record =>
          rw [hc] at hbroken
          exact (eqOff_of_broken hbroken).mono (by simp [spares])
      exact ⟨t, .inl ⟨rfl, nofun⟩, heq.mono fun p hp => List.mem_cons_of_mem _ hp, fun _ => heq⟩
    · have hall : between.EqOff (s.currentPath :: s.spares c) t' :=
        hcurrent.eqOff (by simp [replace, FileOp.paths, spares])
      have hspare : whole = false → between.EqOff (s.spares c) t' := by
        rintro rfl
        exact (eqOff_of_broken hcurrent).mono (by simp [spares])
      cases hc : c.undo with
      | none =>
        rw [hc] at hundo
        cases hundo
        exact ⟨t, .inl ⟨rfl, fun _ => rfl⟩, hall, hspare⟩
      | some record =>
        rw [hc] at hundo
        have hput := put_eqOff (undoPath_ne_nil s c.tip) hundo
        exact ⟨_, .inr ⟨record, rfl, hreaches, rfl⟩, (hput.mono (by simp [spares])).trans hall,
          fun hfalse => (hput.mono (by simp [spares])).trans (hspare hfalse)⟩
  · obtain ⟨rfl, rfl⟩ := h
    exact ⟨t', .inl ⟨rfl, nofun⟩, .refl _ _, fun _ => .refl _ _⟩

theorem Attempts.commit_eq (h : s.Attempts c t true t') : s.commit c t = (.ok (), t') := by
  unfold Attempts at h
  split at h
  · next hreaches => exact commit_eq_ok_iff.mpr ⟨hreaches, FileOp.runAll_of_runs h⟩
  · cases h.1

/-- Nothing at the path has the name of an undo record. -/
def NoRecord (s : FileStore) (q : Path) : Prop :=
  ∀ name, q = s.base ++ [undoFolder] ++ [name] → undoHeight? name = none

theorem noRecord_currentPath (s : FileStore) : s.NoRecord s.currentPath := by
  intro name heq
  exact absurd heq.symm (inUndoFolder_ne_currentPath name)

theorem noRecord_spares (hspare : spare ∈ s.spares c) : s.NoRecord spare := by
  intro name heq
  simp only [spares, List.mem_cons, List.not_mem_nil, or_false] at hspare
  rcases hspare with rfl | rfl
  · rw [undoPath_eq, beside_concat] at heq
    have hname : undoName c.tip ++ ".tmp" = name := by simpa using heq
    rw [← hname, undoHeight?_tmp]
  · rw [currentPath, beside_concat] at heq
    have hlength := congrArg List.length heq
    simp at hlength

theorem currentPath_not_mem_spares : s.currentPath ∉ s.spares c := by
  simp only [spares, List.mem_cons, List.not_mem_nil, or_false, not_or]
  exact ⟨beside_undoPath_ne_currentPath.symm, beside_currentPath_ne.symm⟩

/-- The two give the same answers about undo records. -/
structure SameRecords (s : FileStore) (t t' : FileTree) : Prop where
  undo : ∀ tip, s.undo tip t' = s.undo tip t
  heights : s.heights t' = s.heights t
  prune : ∀ height, (s.prune height t').1 = (s.prune height t).1

theorem load_eq_of_node? (h : t'.node? s.currentPath = t.node? s.currentPath) : s.load t' = s.load t := by
  rw [load, load, readRecord, readRecord, h]

theorem undo_eq_of_node? (h : t'.node? (s.undoPath tip) = t.node? (s.undoPath tip)) :
    s.undo tip t' = s.undo tip t := by
  rw [undo, undo, readRecord, readRecord, h]

/-- The record that a node in the undo folder is by its name. -/
def entry? (s : FileStore) (path : Path) : Option (UInt64 × String) :=
  (FileTree.nameIn (s.base ++ [undoFolder]) path).bind fun name =>
    (undoHeight? name).map fun height => (height, name)

theorem entry?_eq_none (h : s.NoRecord p) : s.entry? p = none := by
  unfold entry?
  rw [Option.bind_eq_none_iff]
  intro name hname
  rw [h name (FileTree.nameIn_eq_some_iff.mp hname), Option.map_none]

theorem undoEntries_eq (s : FileStore) (t : FileTree) :
    s.undoEntries t = if t.isFolder (s.base ++ [undoFolder]) then
      .ok ((t.nodes.filterMap fun entry => s.entry? entry.1).mergeSort fun a b => a.1 ≤ b.1)
    else .error .io := by
  unfold undoEntries FileTree.list?
  split
  · next hlist =>
    split at hlist
    · cases hlist
    · next hfolder => rw [if_neg hfolder]
  · next names hlist =>
    split at hlist
    · next hfolder =>
      cases hlist
      rw [if_pos hfolder, List.filterMap_filterMap]
      rfl
    · cases hlist

theorem undoEntries_eq_of_eqOff (h : t.EqOff ps t') (hps : ∀ p ∈ ps, s.NoRecord p) :
    s.undoEntries t' = s.undoEntries t := by
  have hentries (nodes : List (Path × FileTree.Node)) :
      ((nodes.filter fun entry => entry.1 ∉ ps).filterMap fun entry => s.entry? entry.1) =
        nodes.filterMap fun entry => s.entry? entry.1 := by
    rw [List.filterMap_filter]
    refine List.filterMap_congr fun entry _ => ?_
    by_cases hin : entry.1 ∈ ps
    · simp [hin, entry?_eq_none (hps _ hin)]
    · simp [hin]
  rw [undoEntries_eq, undoEntries_eq, h.folders, ← hentries t'.nodes, h.others, hentries]

theorem removeAll_answer_eq {folder : Path} {count : Nat} {entries : List (UInt64 × String)}
    (h : ∀ entry ∈ entries, t'.node? (folder ++ [entry.2]) = t.node? (folder ++ [entry.2])) :
    (removeAll folder count entries t').1 = (removeAll folder count entries t).1 := by
  induction entries generalizing count t t' with
  | nil => rfl
  | cons entry rest ih =>
    obtain ⟨height, name⟩ := entry
    have hne : folder ++ [name] ≠ [] := by simp
    have hrest : ∀ entry ∈ rest, (t'.erase (folder ++ [name])).node? (folder ++ [entry.2]) =
        (t.erase (folder ++ [name])).node? (folder ++ [entry.2]) := by
      intro entry hentry
      rw [FileTree.node?_erase hne, FileTree.node?_erase hne, h entry (List.mem_cons_of_mem _ hentry)]
    rw [removeAll, removeAll, FileTree.remove?, FileTree.remove?, h (height, name) List.mem_cons_self]
    cases t.node? (folder ++ [name]) with
    | none => rfl
    | some node =>
      cases node with
      | file content => exact ih hrest
      | folder => rfl

theorem SameRecords.of_eqOff (h : t.EqOff ps t') (hps : ∀ p ∈ ps, s.NoRecord p) :
    s.SameRecords t t' := by
  have hentries := undoEntries_eq_of_eqOff h hps
  refine ⟨fun tip => undo_eq_of_node? (h.node?_eq fun hm => ?_), ?_, fun height => ?_⟩
  · have hnone := hps _ hm _ (undoPath_eq s tip)
    rw [undoHeight?_undoName] at hnone
    cases hnone
  · rw [FileStore.heights, FileStore.heights, hentries]
  · unfold FileStore.prune
    rw [hentries]
    cases he : s.undoEntries t with
    | error e => rfl
    | ok entries =>
      refine removeAll_answer_eq fun entry hentry => h.node?_eq fun hm => ?_
      have hheight := ((mem_undoEntries he).mp ((List.takeWhile_sublist _).subset hentry)).2
      rw [hps _ hm _ rfl] at hheight
      cases hheight

/-- A commit that breaks or stops anywhere leaves a store that opens as before. It has the old current
state, or the new one when the last move was done; every undo record is the old one, but that of the tip
may be the new one, and files that were not moved to their places count for nothing. When all of it was
done everything is new, and where it can be done at all, the commit made again leaves what it would have
left. -/
theorem commit_atomic {path : String} {t₀ : FileTree} (hopen : open? path t₀ = (.ok s, t))
    (hsmall : c.Small) :
    s.Attempts c t (s.commit c t).1.isOk (s.commit c t).2 ∧
      ∀ whole t', s.Attempts c t whole t' →
        open? path t' = (.ok s, t') ∧
        s.load t' = (if whole then .ok (some c.stored) else s.load t) ∧
        (∀ tip, tip ≠ c.tip → s.undo tip t' = s.undo tip t) ∧
        (s.SameRecords t t' ∧ (whole = true → c.undo = none) ∨
          ∃ record, c.undo = some record ∧ s.undo c.tip t' = .ok (some record) ∧
            s.SameRecords (t.put (s.undoPath c.tip) (.file record.encode)) t') ∧
        (∀ bare, t'.EqOff (s.spares c) bare → s.load bare = s.load t' ∧ s.SameRecords t' bare) ∧
        (∀ spare ∈ s.spares c, ∀ height, (s.prune height t').2.node? spare = t'.node? spare) ∧
        ∀ t₁, s.commit c t' = (.ok (), t₁) ↔ s.commit c t = (.ok (), t₁) := by
  refine ⟨attempts_commit s c t, fun whole t' h => ?_⟩
  obtain ⟨shown, hshown, hall, hspares⟩ := h.exists_shown
  have hrecords : s.SameRecords shown t' := by
    refine .of_eqOff hall fun p hp => ?_
    rcases List.mem_cons.mp hp with rfl | hspare
    · exact noRecord_currentPath s
    · exact noRecord_spares hspare
  have hcurrent : shown.node? s.currentPath = t.node? s.currentPath := by
    rcases hshown with ⟨rfl, -⟩ | ⟨record, -, -, rfl⟩
    · rfl
    · rw [FileTree.node?_put (undoPath_ne_nil s c.tip), if_neg undoPath_ne_currentPath.symm]
  refine ⟨open?_again hopen h.eqOff.keeps, ?_, ?_, ?_, ?_, ?_, ?_⟩
  · cases whole with
    | false =>
      exact load_eq_of_node? (((hspares rfl).node?_eq currentPath_not_mem_spares).trans hcurrent)
    | true =>
      obtain ⟨hnode, -, -, hreaches⟩ := commit_spec h.commit_eq
      have hstored : t'.node? s.currentPath = (some c.stored).map fun stored => .file stored.encode := by
        rw [hnode, if_pos rfl]
        rfl
      refine readRecord_eq hstored (fun _ => reaches_current hreaches) ?_
      rintro _ ⟨⟩
      exact StoredState.decode?_encode hsmall.1
  · intro tip htip
    rw [hrecords.undo]
    rcases hshown with ⟨rfl, -⟩ | ⟨record, -, -, rfl⟩
    · rfl
    · refine undo_eq_of_node? ?_
      rw [FileTree.node?_put (undoPath_ne_nil s c.tip), if_neg fun heq => htip (undoPath_injective heq)]
  · rcases hshown with ⟨rfl, hnone⟩ | ⟨record, hrecord, hreaches, rfl⟩
    · exact .inl ⟨hrecords, hnone⟩
    · refine .inr ⟨record, hrecord, ?_, hrecords⟩
      rw [hrecords.undo]
      have hplaced : (t.put (s.undoPath c.tip) (.file record.encode)).node? (s.undoPath c.tip) =
          (some record).map fun record => .file record.encode := by
        rw [FileTree.node?_put (undoPath_ne_nil s c.tip), if_pos rfl]
        rfl
      refine readRecord_eq hplaced (fun _ => reaches_undo hrecord hreaches) ?_
      rintro _ ⟨⟩
      exact UndoRecord.decode?_encode (hsmall.2 record hrecord)
  · intro bare hbare
    exact ⟨load_eq_of_node? (hbare.node?_eq currentPath_not_mem_spares),
      .of_eqOff hbare fun p hp => noRecord_spares hp⟩
  · exact fun spare hspare height => node?_prune s t' height (noRecord_spares hspare)
  · exact fun t₁ => ⟨commit_again h.eqOff.symm, commit_again h.eqOff⟩

/-- A block that is committed to the littered folder. -/
def firstBlock : Commit := .forward ⟨1, .zero⟩ [7] .zero [8]

/-- What is there when its commit stops before the last move. -/
def cutShort : FileTree :=
  (FileOp.runAll ((commitOps ⟨["d"], "d"⟩ firstBlock).take 3) littered).2

theorem attempts_cutShort : Attempts ⟨["d"], "d"⟩ firstBlock littered false cutShort := by
  have hreaches : reaches ⟨["d"], "d"⟩ (firstPath firstBlock) = true := by decide +kernel
  have hrun : FileOp.runAll ((commitOps ⟨["d"], "d"⟩ firstBlock).take 3) littered = (true, cutShort) := by
    have hwhole : (FileOp.runAll ((commitOps ⟨["d"], "d"⟩ firstBlock).take 3) littered).1 = true := by
      decide +kernel
    exact Prod.ext hwhole rfl
  rw [Attempts, if_pos hreaches, ← List.take_append_drop 3 (commitOps ⟨["d"], "d"⟩ firstBlock)]
  exact .stop hrun (by decide)

theorem commit_atomic_cutShort :
    load ⟨["d"], "d"⟩ cutShort = load ⟨["d"], "d"⟩ littered ∧
      ∀ t₁, commit ⟨["d"], "d"⟩ firstBlock cutShort = (.ok (), t₁) ↔
        commit ⟨["d"], "d"⟩ firstBlock littered = (.ok (), t₁) := by
  have hsmall : firstBlock.Small := ⟨by decide, fun record hr => by cases hr; decide⟩
  obtain ⟨-, hload, -, -, -, -, hagain⟩ :=
    (commit_atomic open?_littered hsmall).2 false cutShort attempts_cutShort
  exact ⟨hload, hagain⟩

end FileStore

end ChainFollower
