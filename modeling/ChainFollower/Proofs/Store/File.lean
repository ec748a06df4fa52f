import ChainFollower.Proofs.Store.FileTree
import ChainFollower.Proofs.Store.Memory
import ChainFollower.Proofs.Store.Names
import ChainFollower.Proofs.Store.Record

namespace ChainFollower

open FileTree (Path)

namespace FileOp

theorem runAll_append (front back : List FileOp) (t t' : FileTree) :
    runAll (front ++ back) t = (true, t') ↔
      ∃ between, runAll front t = (true, between) ∧ runAll back between = (true, t') := by
  induction front generalizing t with
  | nil => simp [runAll]
  | cons op ops ih =>
    rw [List.cons_append, runAll, runAll]
    cases op.run? t with
    | none => simp
    | some next => exact ih next

end FileOp

namespace FileTree

/-- What a file that takes its place by way of the path beside it leaves at each path. -/
def replaced (t : FileTree) (path : Path) (content : Bytes) (q : Path) : Option Node :=
  if q = path then some (.file content)
  else if q = FileStore.beside path then none
  else t.node? q

end FileTree

namespace FileStore

variable {s : FileStore} {t t' : FileTree} {tip : Tip}

theorem beside_concat (folder : Path) (name : String) :
    beside (folder ++ [name]) = folder ++ [name ++ ".tmp"] := by
  rw [beside, List.dropLast_concat, List.getLastD_concat]

theorem ne_append_tmp (name : String) : name ≠ name ++ ".tmp" := by
  intro h
  have hlength := congrArg (fun text => text.toList.length) h
  simp at hlength

/-- Nothing that was a folder is gone or has become a file. -/
def Keeps (t t' : FileTree) : Prop := ∀ p, t.isFolder p = true → t'.isFolder p = true

theorem Keeps.trans {t₁ t₂ t₃ : FileTree} (h : Keeps t₁ t₂) (h' : Keeps t₂ t₃) : Keeps t₁ t₃ :=
  fun p hp => h' p (h p hp)

theorem replace_spec {folder : Path} {name : String} {content : Bytes}
    (h : FileOp.runAll (replace (folder ++ [name]) content) t = (true, t')) :
    (∀ q, t'.node? q = t.replaced (folder ++ [name]) content q) ∧ Keeps t t' ∧
      ((t.nodes.map Prod.fst).Nodup → (t'.nodes.map Prod.fst).Nodup) := by
  have hpath : folder ++ [name] ≠ [] := by simp
  have hbeside : beside (folder ++ [name]) ≠ [] := by simp [beside_concat]
  have hne : folder ++ [name] ≠ beside (folder ++ [name]) := by
    rw [beside_concat]
    intro heq
    exact ne_append_tmp name (by simpa using heq)
  generalize folder ++ [name] = path at *
  unfold replace FileOp.runAll at h
  split at h
  · next written hwrite =>
    obtain ⟨_, hfree, rfl⟩ := FileTree.write?_eq_some hwrite
    unfold FileOp.runAll at h
    split at h
    · next moved hmove =>
      obtain ⟨content', hcontent, _, hfree', rfl⟩ := FileTree.rename?_eq_some hmove
      rw [FileTree.node?_put hbeside, if_pos rfl] at hcontent
      cases hcontent
      cases h
      have hnode : ∀ q, (((t.put (beside path) (.file content)).erase (beside path)).put path
          (.file content)).node? q = t.replaced path content q := by
        intro q
        rw [FileTree.node?_put hpath, FileTree.node?_erase hbeside, FileTree.replaced]
        by_cases hq : q = path
        · rw [if_pos hq, if_pos hq]
        · rw [if_neg hq, if_neg hq]
          by_cases hq' : q = beside path
          · rw [if_pos hq', if_pos hq']
          · rw [if_neg hq', if_neg hq', FileTree.node?_put hbeside, if_neg hq']
      refine ⟨hnode, ?_, fun once => FileTree.Nodup.put (FileTree.Nodup.erase (FileTree.Nodup.put once))⟩
      intro q hq
      have hqb : q ≠ beside path := by
        rintro rfl
        rw [hq] at hfree
        cases hfree
      have hqp : q ≠ path := by
        rintro rfl
        rw [FileTree.isFolder_iff] at hq
        have hthere : ((t.put (beside q) (.file content)).erase (beside q)).isFolder q = true := by
          rw [FileTree.isFolder_iff, FileTree.node?_erase hbeside, if_neg hqb,
            FileTree.node?_put hbeside, if_neg hqb]
          exact hq
        rw [hthere] at hfree'
        cases hfree'
      rw [FileTree.isFolder_iff] at hq ⊢
      rw [hnode, FileTree.replaced, if_neg hqp, if_neg hqb]
      exact hq
    · cases h
  · cases h

/-- What stands in front of a name in the text of its path. -/
def lead (label : String) : String :=
  if label.isEmpty || label.endsWith "/" then label else label ++ "/"

theorem joinPath_eq {label path : String} (h : path.startsWith "/" = false) :
    FileTree.joinPath label path = lead label ++ path := by
  unfold FileTree.joinPath lead
  rw [if_neg (by simp [h])]
  split <;> rfl

theorem isPath_append (a b : String) :
    FileTree.isPath (a ++ b) = true ↔
      a.utf8ByteSize + b.utf8ByteSize ≤ FileTree.pathLimit ∧ '\x00' ∉ a.toList ∧ '\x00' ∉ b.toList := by
  simp [FileTree.isPath, String.utf8ByteSize_append, String.toList_append]

/-- A shorter path below the folder is short enough, too. -/
theorem reaches_of_le {long short : String} (hl : long.startsWith "/" = false)
    (hs : short.startsWith "/" = false) (hle : short.utf8ByteSize ≤ long.utf8ByteSize)
    (hzero : '\x00' ∉ long.toList → '\x00' ∉ short.toList) (h : s.reaches long = true) :
    s.reaches short = true := by
  unfold reaches at h ⊢
  rw [joinPath_eq hl, isPath_append] at h
  rw [joinPath_eq hs, isPath_append]
  obtain ⟨hsize, hlabel, hlong⟩ := h
  exact ⟨by omega, hlabel, hzero hlong⟩

theorem startsWith_firstPath (c : Commit) : (firstPath c).startsWith "/" = false := by
  rw [String.startsWith_string_eq_false_iff]
  unfold firstPath
  split <;> simp [undoFolder, currentName, String.toList_append]

theorem reaches_current {c : Commit} (h : s.reaches (firstPath c) = true) :
    s.reaches currentName = true := by
  refine reaches_of_le (startsWith_firstPath c) ?_ ?_ (fun _ => by decide) h
  · rw [String.startsWith_string_eq_false_iff]
    simp [currentName]
  · unfold firstPath
    split
    · simp only [undoName, undoFolder, currentName, String.utf8ByteSize_append]
      have h1 : "current.bin".utf8ByteSize = 11 := by decide
      have h2 : "undo".utf8ByteSize = 4 := by decide
      have h3 : "undo_".utf8ByteSize = 5 := by decide
      have h4 : ".bin".utf8ByteSize = 4 := by decide
      omega
    · rw [String.utf8ByteSize_append]
      omega

theorem reaches_undo {c : Commit} {record : UndoRecord} (hc : c.undo = some record)
    (h : s.reaches (firstPath c) = true) :
    s.reaches (undoFolder ++ "/" ++ undoName c.tip) = true := by
  have hfirst : firstPath c = undoFolder ++ "/" ++ undoName c.tip ++ ".tmp" := by
    rw [firstPath, hc]
    rfl
  refine reaches_of_le (startsWith_firstPath c) ?_ ?_ ?_ h
  · rw [String.startsWith_string_eq_false_iff]
    simp [undoFolder, String.toList_append]
  · have hsize : (undoFolder ++ "/" ++ undoName c.tip ++ ".tmp").utf8ByteSize =
        (undoFolder ++ "/" ++ undoName c.tip).utf8ByteSize + ".tmp".utf8ByteSize :=
      String.utf8ByteSize_append
    rw [hfirst]
    omega
  · intro hlong hshort
    rw [hfirst, String.toList_append] at hlong
    exact hlong (List.mem_append_left _ hshort)

theorem undoPath_eq (s : FileStore) (tip : Tip) :
    s.undoPath tip = s.base ++ [undoFolder] ++ [undoName tip] := by
  rw [undoPath, List.append_assoc]
  rfl

/-- The current state is not kept in the folder of the records. -/
theorem inUndoFolder_ne_currentPath (name : String) :
    s.base ++ [undoFolder] ++ [name] ≠ s.currentPath := by
  intro h
  have hlength := congrArg List.length h
  simp [currentPath] at hlength

theorem undoPath_ne_currentPath : s.undoPath tip ≠ s.currentPath := by
  rw [undoPath_eq]
  exact inUndoFolder_ne_currentPath _

theorem undoPath_injective {a b : Tip} (h : s.undoPath a = s.undoPath b) : a = b := by
  rw [undoPath_eq, undoPath_eq] at h
  exact undoName_injective (by simpa using h)

theorem beside_currentPath_ne_inUndoFolder (name : String) :
    beside s.currentPath ≠ s.base ++ [undoFolder] ++ [name] := by
  rw [currentPath, beside_concat]
  intro h
  have hlength := congrArg List.length h
  simp at hlength

theorem beside_undoPath_ne {a b : Tip} : beside (s.undoPath a) ≠ s.undoPath b := by
  rw [undoPath_eq, beside_concat, undoPath_eq]
  intro h
  have hname : undoName a ++ ".tmp" = undoName b := by simpa using h
  have hheight := undoHeight?_undoName b
  rw [← hname, undoHeight?_tmp] at hheight
  cases hheight

theorem beside_undoPath_ne_currentPath : beside (s.undoPath tip) ≠ s.currentPath := by
  rw [undoPath_eq, beside_concat]
  exact inUndoFolder_ne_currentPath _

theorem beside_currentPath_ne : beside s.currentPath ≠ s.currentPath := by
  rw [currentPath, beside_concat]
  intro h
  exact ne_append_tmp currentName (by simpa using h.symm)

/-- What is written of the undo record of a commit. -/
def recorded (s : FileStore) (c : Commit) (t : FileTree) (q : Path) : Option FileTree.Node :=
  match c.undo with
  | some record => t.replaced (s.undoPath c.tip) record.encode q
  | none => t.node? q

theorem commit_spec {c : Commit} (h : s.commit c t = (.ok (), t')) :
    (∀ q, t'.node? q =
      if q = s.currentPath then some (.file c.stored.encode)
      else if q = beside s.currentPath then none
      else s.recorded c t q) ∧ Keeps t t' ∧
      ((t.nodes.map Prod.fst).Nodup → (t'.nodes.map Prod.fst).Nodup) ∧
      s.reaches (firstPath c) = true := by
  unfold commit at h
  split at h
  · next hreaches =>
    obtain ⟨whole, hrun⟩ : ∃ whole, FileOp.runAll (s.commitOps c) t = (whole, t') := by
      have ht := (Prod.ext_iff.mp h).2
      exact ⟨_, Prod.ext rfl ht⟩
    rw [hrun] at h
    cases whole with
    | false => cases h
    | true =>
      obtain ⟨between, hundo, hcurrent⟩ := (FileOp.runAll_append _ _ _ _).mp hrun
      obtain ⟨hnode, hkeeps, honce⟩ := replace_spec hcurrent
      have hrecorded : (∀ q, between.node? q = s.recorded c t q) ∧ Keeps t between ∧
          ((t.nodes.map Prod.fst).Nodup → (between.nodes.map Prod.fst).Nodup) := by
        unfold recorded
        cases hc : c.undo with
        | none =>
          rw [hc] at hundo
          cases hundo
          exact ⟨fun q => rfl, fun p hp => hp, fun once => once⟩
        | some record =>
          rw [hc] at hundo
          simp only [undoPath_eq] at hundo ⊢
          exact replace_spec hundo
      obtain ⟨hbetween, hkeeps', honce'⟩ := hrecorded
      refine ⟨?_, hkeeps'.trans hkeeps, fun once => honce (honce' once), hreaches⟩
      intro q
      rw [hnode q, FileTree.replaced, hbetween q]
      rfl
  · cases h

theorem removeAll_spec {folder : Path} {count n : Nat} {entries : List (UInt64 × String)}
    (h : removeAll folder count entries t = (.ok n, t')) :
    n = count + entries.length ∧
      (∀ q, t'.node? q = if ∃ entry ∈ entries, q = folder ++ [entry.2] then none else t.node? q) ∧
      Keeps t t' ∧ ((t.nodes.map Prod.fst).Nodup → (t'.nodes.map Prod.fst).Nodup) := by
  induction entries generalizing count t with
  | nil =>
    cases h
    exact ⟨rfl, fun q => by simp, fun p hp => hp, fun once => once⟩
  | cons entry rest ih =>
    obtain ⟨height, name⟩ := entry
    have hne : folder ++ [name] ≠ [] := by simp
    unfold removeAll at h
    split at h
    · cases h
    · next removed hremove =>
      obtain ⟨⟨content, hfile⟩, rfl⟩ := FileTree.remove?_eq_some hremove
      obtain ⟨hcount, hnode, hkeeps, honce⟩ := ih h
      refine ⟨by rw [hcount, List.length_cons]; omega, ?_, ?_, fun once => honce (FileTree.Nodup.erase once)⟩
      · intro q
        rw [hnode q, FileTree.node?_erase hne]
        by_cases hq : q = folder ++ [name]
        · have hfirst : ∃ entry ∈ (height, name) :: rest, q = folder ++ [entry.2] :=
            ⟨(height, name), List.mem_cons_self, hq⟩
          rw [if_pos hq, if_pos hfirst, ite_self]
        · have hrest : (∃ entry ∈ (height, name) :: rest, q = folder ++ [entry.2]) ↔
              ∃ entry ∈ rest, q = folder ++ [entry.2] := by
            simp only [List.mem_cons, exists_eq_or_imp, hq, false_or]
          rw [if_neg hq]
          simp only [hrest]
      · intro q hq
        refine hkeeps q ?_
        have hqn : q ≠ folder ++ [name] := by
          rintro rfl
          rw [FileTree.isFolder_iff, hfile] at hq
          cases hq
        rw [FileTree.isFolder_iff] at hq ⊢
        rw [FileTree.node?_erase hne, if_neg hqn, hq]

/-- Whatever comes of it, pruning leaves everything alone that is no record by its name. -/
theorem node?_removeAll {folder q : Path} {count : Nat} {entries : List (UInt64 × String)}
    (h : ∀ entry ∈ entries, q ≠ folder ++ [entry.2]) :
    (removeAll folder count entries t).2.node? q = t.node? q := by
  induction entries generalizing count t with
  | nil => rfl
  | cons entry rest ih =>
    obtain ⟨height, name⟩ := entry
    have hne : folder ++ [name] ≠ [] := by simp
    unfold removeAll
    split
    · rfl
    · next removed hremove =>
      obtain ⟨_, rfl⟩ := FileTree.remove?_eq_some hremove
      rw [ih fun entry hentry => h entry (List.mem_cons_of_mem _ hentry)]
      rw [FileTree.node?_erase hne, if_neg (h (height, name) List.mem_cons_self)]

theorem undoEntries_eq_ok {entries : List (UInt64 × String)} (h : s.undoEntries t = .ok entries) :
    ∃ names, t.list? (s.base ++ [undoFolder]) = some names ∧
      entries = (names.filterMap fun name => (undoHeight? name).map fun height => (height, name)).mergeSort
        fun a b => a.1 ≤ b.1 := by
  unfold undoEntries at h
  split at h
  · cases h
  · next names hnames =>
    cases h
    exact ⟨names, hnames, rfl⟩

theorem mem_undoEntries {entries : List (UInt64 × String)} (h : s.undoEntries t = .ok entries)
    {height : UInt64} {name : String} :
    (height, name) ∈ entries ↔
      t.node? (s.base ++ [undoFolder] ++ [name]) ≠ none ∧ undoHeight? name = some height := by
  obtain ⟨names, hnames, rfl⟩ := undoEntries_eq_ok h
  rw [List.mem_mergeSort, List.mem_filterMap, ← FileTree.mem_list? hnames]
  constructor
  · rintro ⟨other, hm, hother⟩
    obtain ⟨_, hheight, heq⟩ := Option.map_eq_some_iff.mp hother
    cases heq
    exact ⟨hm, hheight⟩
  · rintro ⟨hm, hheight⟩
    exact ⟨name, hm, by rw [hheight]; rfl⟩

theorem sorted_undoEntries {entries : List (UInt64 × String)} (h : s.undoEntries t = .ok entries) :
    entries.Pairwise fun a b => a.1 ≤ b.1 := by
  obtain ⟨names, _, rfl⟩ := undoEntries_eq_ok h
  refine (List.pairwise_mergeSort ?_ ?_ _).imp fun hle => by simpa using hle
  · intro a b c hab hbc
    simp only [decide_eq_true_eq] at hab hbc ⊢
    exact UInt64.le_trans hab hbc
  · intro a b
    simpa using UInt64.le_total a.1 b.1

theorem nodup_undoEntries (once : (t.nodes.map Prod.fst).Nodup) {entries : List (UInt64 × String)}
    (h : s.undoEntries t = .ok entries) : entries.Nodup := by
  obtain ⟨names, hnames, rfl⟩ := undoEntries_eq_ok h
  rw [(List.mergeSort_perm _ _).nodup_iff]
  refine (FileTree.nodup_list? once hnames).filterMap ?_
  intro a b entry ha hb
  obtain ⟨_, _, rfl⟩ := Option.map_eq_some_iff.mp ha
  obtain ⟨_, _, heq⟩ := Option.map_eq_some_iff.mp hb
  exact (Prod.ext_iff.mp heq).2.symm

theorem takeWhile_eq_filter {entries : List (UInt64 × String)}
    (h : entries.Pairwise fun a b => a.1 ≤ b.1) (height : UInt64) :
    (entries.takeWhile fun entry => entry.1 < height) = entries.filter fun entry => entry.1 < height := by
  induction entries with
  | nil => rfl
  | cons entry rest ih =>
    obtain ⟨hfirst, hrest⟩ := List.pairwise_cons.mp h
    by_cases hlt : entry.1 < height
    · rw [List.takeWhile_cons_of_pos (by simpa using hlt), List.filter_cons_of_pos (by simpa using hlt),
        ih hrest]
    · rw [List.takeWhile_cons_of_neg (by simpa using hlt), eq_comm, List.filter_eq_nil_iff]
      intro other hother hlow
      rcases List.mem_cons.mp hother with rfl | hm
      · exact hlt (by simpa using hlow)
      · exact hlt (UInt64.lt_of_le_of_lt (hfirst other hm) (by simpa using hlow))

end FileStore

end ChainFollower
