import ChainFollower.Proofs.Lookup
import ChainFollower.Store.FileTree
import Mathlib.Data.List.Nodup

namespace ChainFollower

namespace FileTree

/-- Each path once, and whatever there is lies in a folder. -/
structure Sound (t : FileTree) : Prop where
  once : (t.nodes.map Prod.fst).Nodup
  rooted : ∀ entry ∈ t.nodes, entry.1 ≠ [] ∧ t.isFolder (parent entry.1)

variable {t t' : FileTree} {p q : Path} {content : Bytes} {node : Node}

@[simp] theorem node?_nil (t : FileTree) : t.node? [] = some .folder := rfl

theorem node?_of_ne_nil (h : p ≠ []) : t.node? p = t.nodes.lookup p := by
  cases p with
  | nil => exact absurd rfl h
  | cons a r => rfl

theorem isFolder_iff : t.isFolder p = true ↔ t.node? p = some .folder := by
  rw [isFolder, beq_iff_eq]

theorem node?_erase (hp : p ≠ []) : (t.erase p).node? q = if q = p then none else t.node? q := by
  by_cases hq : q = []
  · have hne : [] ≠ p := fun h => hp h.symm
    rw [hq, if_neg hne, node?_nil, node?_nil]
  · rw [node?_of_ne_nil hq, node?_of_ne_nil hq]
    refine (lookup_filter_key (· != p) t.nodes q).trans ?_
    by_cases h : q = p
    · simp [h]
    · simp [h]

theorem node?_cons (hp : p ≠ []) :
    (⟨(p, node) :: t.nodes⟩ : FileTree).node? q = if q = p then some node else t.node? q := by
  by_cases hq : q = []
  · have hne : [] ≠ p := fun h => hp h.symm
    rw [hq, if_neg hne, node?_nil, node?_nil]
  · rw [node?_of_ne_nil hq, node?_of_ne_nil hq, lookup_cons_if]

theorem node?_put (hp : p ≠ []) :
    (t.put p node).node? q = if q = p then some node else t.node? q := by
  rw [put, node?_cons hp]
  by_cases h : q = p
  · rw [if_pos h, if_pos h]
  · rw [if_neg h, if_neg h]
    exact (node?_erase hp).trans (if_neg h)

theorem Nodup.erase (h : (t.nodes.map Prod.fst).Nodup) : ((t.erase p).nodes.map Prod.fst).Nodup :=
  h.sublist (List.filter_sublist.map Prod.fst)

theorem Nodup.put (h : (t.nodes.map Prod.fst).Nodup) : ((t.put p node).nodes.map Prod.fst).Nodup := by
  refine List.nodup_cons.mpr ⟨?_, Nodup.erase h⟩
  intro hm
  obtain ⟨entry, hentry, rfl⟩ := List.mem_map.mp hm
  simp [FileTree.erase] at hentry

theorem write?_eq_some (h : t.write? p content = some t') :
    p ≠ [] ∧ t.isFolder p = false ∧ t' = t.put p (.file content) := by
  unfold write? at h
  split at h
  · cases h
  · next hc =>
    cases h
    simp only [Bool.or_eq_true, Bool.not_eq_true', not_or, List.isEmpty_iff, Bool.not_eq_true] at hc
    exact ⟨hc.1.1, hc.2, rfl⟩

theorem remove?_eq_some (h : t.remove? p = some t') :
    (∃ content, t.node? p = some (.file content)) ∧ t' = t.erase p := by
  unfold remove? at h
  split at h
  · next content hnode =>
    cases h
    exact ⟨⟨content, hnode⟩, rfl⟩
  · cases h

theorem read?_eq_some (h : t.read? p = some content) : t.node? p = some (.file content) := by
  unfold read? at h
  split at h
  · next hnode =>
    cases h
    exact hnode
  · cases h

theorem rename?_eq_some (h : t.rename? p q = some t') :
    ∃ content, t.node? p = some (.file content) ∧ q ≠ [] ∧ (t.erase p).isFolder q = false ∧
      t' = (t.erase p).put q (.file content) := by
  unfold rename? at h
  cases hread : t.read? p with
  | none =>
    rw [hread] at h
    cases h
  | some content =>
    rw [hread] at h
    obtain ⟨hq, hfolder, rfl⟩ := write?_eq_some h
    exact ⟨content, read?_eq_some hread, hq, hfolder, rfl⟩

theorem node?_eq_none_iff (hp : p ≠ []) : t.node? p = none ↔ p ∉ t.nodes.map Prod.fst := by
  rw [node?_of_ne_nil hp, List.lookup_eq_none_iff]
  constructor
  · rintro h hm
    obtain ⟨entry, hentry, rfl⟩ := List.mem_map.mp hm
    simpa using h entry hentry
  · intro h entry hentry
    have hne : p ≠ entry.1 := fun heq => h (heq ▸ List.mem_map_of_mem hentry)
    simpa using hne

/-- The name of what lies directly in a folder. -/
def nameIn (folder path : Path) : Option String :=
  if path.dropLast = folder then path.getLast? else none

theorem nameIn_eq_some_iff {folder path : Path} {name : String} :
    nameIn folder path = some name ↔ path = folder ++ [name] := by
  constructor
  · intro h
    unfold nameIn at h
    split at h
    · next hdrop =>
      obtain ⟨front, rfl⟩ := List.getLast?_eq_some_iff.mp h
      rw [List.dropLast_concat] at hdrop
      rw [hdrop]
    · cases h
  · rintro rfl
    rw [nameIn, if_pos List.dropLast_concat, List.getLast?_concat]

theorem list?_eq_some {names : List String} (h : t.list? p = some names) :
    t.isFolder p = true ∧ names = (t.nodes.map Prod.fst).filterMap (nameIn p) := by
  unfold list? at h
  split at h
  · next hfolder =>
    cases h
    exact ⟨hfolder, by rw [List.filterMap_map]; rfl⟩
  · cases h

theorem mem_list? {names : List String} (h : t.list? p = some names) {name : String} :
    name ∈ names ↔ t.node? (p ++ [name]) ≠ none := by
  have hne : p ++ [name] ≠ [] := by simp
  obtain ⟨_, rfl⟩ := list?_eq_some h
  rw [List.mem_filterMap, ne_eq, node?_eq_none_iff hne, Decidable.not_not]
  constructor
  · rintro ⟨path, hm, hname⟩
    rw [← nameIn_eq_some_iff.mp hname]
    exact hm
  · intro hm
    exact ⟨_, hm, nameIn_eq_some_iff.mpr rfl⟩

theorem nodup_list? (hs : (t.nodes.map Prod.fst).Nodup) {names : List String}
    (h : t.list? p = some names) : names.Nodup := by
  obtain ⟨_, rfl⟩ := list?_eq_some h
  refine hs.filterMap ?_
  intro path other name hpath hother
  rw [nameIn_eq_some_iff.mp hpath, nameIn_eq_some_iff.mp hother]

theorem Sound.cons_folder (hs : t.Sound) {here : Path} {name : String}
    (hhere : t.isFolder here = true) (hnone : t.node? (here ++ [name]) = none) :
    Sound ⟨(here ++ [name], .folder) :: t.nodes⟩ := by
  have hne : here ++ [name] ≠ [] := by simp
  have hkeep : ∀ q, t.isFolder q = true →
      isFolder ⟨(here ++ [name], .folder) :: t.nodes⟩ q = true := by
    intro q hq
    rw [isFolder_iff] at hq ⊢
    rw [node?_cons hne]
    split
    · rfl
    · exact hq
  refine ⟨List.nodup_cons.mpr ⟨(node?_eq_none_iff hne).mp hnone, hs.once⟩, ?_⟩
  intro entry hentry
  rcases List.mem_cons.mp hentry with rfl | hm
  · refine ⟨hne, hkeep _ ?_⟩
    rw [parent, List.dropLast_concat]
    exact hhere
  · obtain ⟨hpath, hparent⟩ := hs.rooted entry hm
    exact ⟨hpath, hkeep _ hparent⟩

/-- There is nothing in what is not there. -/
theorem Sound.node?_below (hs : t.Sound) (hnone : t.node? p = none) (name : String) :
    t.node? (p ++ [name]) = none := by
  have hne : p ++ [name] ≠ [] := by simp
  rw [node?_eq_none_iff hne]
  intro hm
  obtain ⟨entry, hentry, hpath⟩ := List.mem_map.mp hm
  have hparent := (hs.rooted entry hentry).2
  rw [hpath, parent, List.dropLast_concat, isFolder_iff, hnone] at hparent
  cases hparent

theorem isFolder_parent (hs : t.Sound) (h : t.isFolder p = true) : t.isFolder (parent p) = true := by
  cases p with
  | nil => rfl
  | cons a r =>
    have hne : a :: r ≠ [] := by simp
    rw [isFolder_iff] at h
    have hm : a :: r ∈ t.nodes.map Prod.fst := by
      by_contra hn
      rw [(node?_eq_none_iff hne).mpr hn] at h
      cases h
    obtain ⟨entry, hentry, hpath⟩ := List.mem_map.mp hm
    have hparent := (hs.rooted entry hentry).2
    rwa [hpath] at hparent

theorem isFolder_cons (hp : p ≠ []) (h : t.isFolder q = true) :
    isFolder ⟨(p, .folder) :: t.nodes⟩ q = true := by
  rw [isFolder_iff] at h ⊢
  rw [node?_cons hp]
  split
  · rfl
  · exact h

theorem Sound.walk (hs : t.Sound) {fresh : Bool} {here : Path} {names : List String}
    (hhere : t.isFolder here = true) (hfresh : fresh = true → ∀ name, t.node? (here ++ [name]) = none) :
    (t.walk fresh here names).2.Sound := by
  fun_induction FileTree.walk t fresh here names with
  | case1 => exact hs
  | case2 t fresh here name names _ ih => exact ih hs hhere hfresh
  | case3 t fresh here name names _ _ ih =>
    exact ih hs (isFolder_parent hs hhere) (fun h => absurd h (by decide))
  | case4 => exact hs
  | case5 t fresh here name names _ _ _ path hnode ih =>
    have hne : path ≠ [] := by simp [path]
    have hnone : t.node? path = none := by
      split at hnode
      · next h => exact hfresh h name
      · exact hnode
    have hcons := hs.cons_folder hhere hnone
    refine ih hcons (isFolder_iff.mpr ((node?_cons hne).trans (if_pos rfl))) fun _ other => ?_
    have hbelow : path ++ [other] ≠ path := by simp
    rw [node?_cons hne, if_neg hbelow]
    exact hs.node?_below hnone other
  | case6 t fresh here name names _ _ _ path hnode ih =>
    refine ih hs (isFolder_iff.mpr ?_) fun h => absurd h (by decide)
    split at hnode
    · cases hnode
    · exact hnode
  | case7 => exact hs

theorem isFolder_walk (fresh : Bool) (here : Path) (names : List String)
    (h : t.isFolder q = true) : (t.walk fresh here names).2.isFolder q = true := by
  fun_induction FileTree.walk t fresh here names with
  | case5 t fresh here name names _ _ _ path hnode ih =>
    have hne : path ≠ [] := by simp [path]
    exact ih (isFolder_cons hne h)
  | _ => simp_all

/-- The folders that a walk has found or made lead another one to the same place. -/
theorem walk_again {fresh : Bool} {here target : Path} {names : List String}
    (h : t.walk fresh here names = (some target, t')) {s : FileTree}
    (hs : ∀ q, t'.isFolder q = true → s.isFolder q = true) :
    s.walk false here names = (some target, s) := by
  fun_induction FileTree.walk t fresh here names with
  | case1 =>
    cases h
    rfl
  | case2 t fresh here name names hsame ih =>
    rw [FileTree.walk, if_pos hsame]
    exact ih h
  | case3 t fresh here name names hsame hup ih =>
    rw [FileTree.walk, if_neg hsame, if_pos hup]
    exact ih h
  | case4 => cases h
  | case5 t fresh here name names hsame hup hlong path hnode ih =>
    have hne : path ≠ [] := by simp [path]
    have hmade : t'.isFolder path = true := by
      have hkeep := isFolder_walk (t := ⟨(path, .folder) :: t.nodes⟩) (q := path) true path names
        (isFolder_iff.mpr ((node?_cons hne).trans (if_pos rfl)))
      rwa [h] at hkeep
    have hagain : s.node? (here ++ [name]) = some .folder := isFolder_iff.mp (hs _ hmade)
    rw [FileTree.walk, if_neg hsame, if_neg hup, if_neg hlong]
    simp only [Bool.false_eq_true, if_false, hagain]
    exact ih h
  | case6 t fresh here name names hsame hup hlong path hnode ih =>
    have hthere : t.isFolder path = true := by
      rw [isFolder_iff]
      split at hnode
      · cases hnode
      · exact hnode
    have hmade : t'.isFolder path = true := by
      have hkeep := isFolder_walk false path names hthere
      rwa [h] at hkeep
    have hagain : s.node? (here ++ [name]) = some .folder := isFolder_iff.mp (hs _ hmade)
    rw [FileTree.walk, if_neg hsame, if_neg hup, if_neg hlong]
    simp only [Bool.false_eq_true, if_false, hagain]
    exact ih h
  | case7 => cases h

theorem Sound.makeFolders (hs : t.Sound) {here : Path} (hhere : t.isFolder here = true)
    (path : String) : (t.makeFolders here path).2.Sound := by
  unfold FileTree.makeFolders
  split
  · exact hs.walk hhere fun h => absurd h (by decide)
  · exact hs

theorem makeFolders_again {here target : Path} {path : String}
    (h : t.makeFolders here path = (some target, t')) {s : FileTree}
    (hs : ∀ q, t'.isFolder q = true → s.isFolder q = true) :
    s.makeFolders here path = (some target, s) := by
  unfold FileTree.makeFolders at h ⊢
  split at h
  · next hpath =>
    rw [if_pos hpath]
    exact walk_again h hs
  · cases h

end FileTree

end ChainFollower
