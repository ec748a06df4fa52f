import ChainFollower.Proofs.Store.Interruption
import Mathlib.Data.List.SplitBy

namespace ChainFollower

open FileTree (Path)

namespace FileTree

variable {t t' : FileTree} {here target : Path}

/-- Where names lead from a folder, when every folder on the way is there. -/
def landing (here : Path) : List String → Path
  | [] => here
  | name :: names =>
    if name == "" || name == "." then landing here names
    else if name == ".." then landing (parent here) names
    else landing (here ++ [name]) names

theorem landing_append (here : Path) (front back : List String) :
    landing here (front ++ back) = landing (landing here front) back := by
  induction front generalizing here with
  | nil => rfl
  | cons name names ih =>
    simp only [List.cons_append, landing]
    split
    · exact ih here
    · split
      · exact ih (parent here)
      · exact ih (here ++ [name])

theorem eq_landing_of_walk {fresh : Bool} {names : List String}
    (h : t.walk fresh here names = (some target, t')) : target = landing here names := by
  fun_induction FileTree.walk t fresh here names with
  | case1 =>
    cases h
    rfl
  | case2 t fresh here name names hsame ih =>
    rw [landing, if_pos hsame]
    exact ih h
  | case3 t fresh here name names hsame hup ih =>
    rw [landing, if_neg hsame, if_pos hup]
    exact ih h
  | case4 => cases h
  | case5 t fresh here name names hsame hup _ path _ ih =>
    rw [landing, if_neg hsame, if_neg hup]
    exact ih h
  | case6 t fresh here name names hsame hup _ path _ ih =>
    rw [landing, if_neg hsame, if_neg hup]
    exact ih h
  | case7 => cases h

theorem names_append_slash (a b : String) : names (a ++ "/" ++ b) = names a ++ names ("/" ++ b) := by
  have hsplit : (a ++ "/" ++ b).toList.splitBy (fun _ b => b != '/') =
      a.toList.splitBy (fun _ b => b != '/') ++ ("/" ++ b).toList.splitBy (fun _ b => b != '/') := by
    have hlist : (a ++ "/" ++ b).toList = a.toList ++ '/' :: b.toList := by simp [String.toList_append]
    have hlist' : ("/" ++ b).toList = '/' :: b.toList := by simp [String.toList_append]
    rw [hlist, hlist', List.splitBy_append_cons _ fun _ _ => rfl]
  rw [names, hsplit, List.map_append]
  rfl

/-- A name has no slash, and does not stand for a folder that is there already. -/
structure IsName (name : String) : Prop where
  noSlash : '/' ∉ name.toList
  notEmpty : name ≠ ""
  notHere : name ≠ "."
  notUp : name ≠ ".."

theorem isChain_noSlash (a : Char) {cs : List Char} (h : '/' ∉ cs) :
    (a :: cs).IsChain fun _ b => (b != '/') = true := by
  induction cs generalizing a with
  | nil => exact .singleton a
  | cons b rest ih =>
    have hb : b ≠ '/' := fun heq => h (heq ▸ List.mem_cons_self)
    exact .cons_cons (by simpa using hb) (ih b fun hm => h (List.mem_cons_of_mem b hm))

theorem filter_noSlash {cs : List Char} (h : '/' ∉ cs) : cs.filter (· != '/') = cs := by
  refine List.filter_eq_self.mpr fun c hc => ?_
  have hne : c ≠ '/' := fun heq => h (heq ▸ hc)
  simpa using hne

theorem names_slash {name : String} (h : IsName name) : names ("/" ++ name) = [name] := by
  have hlist : ("/" ++ name).toList = '/' :: name.toList := by simp [String.toList_append]
  rw [names, hlist, List.splitBy_of_isChain (by simp) (isChain_noSlash '/' h.noSlash), List.map_singleton,
    List.filter_cons_of_neg (by simp), filter_noSlash h.noSlash, String.ofList_toList]

theorem names_self {name : String} (h : IsName name) : names name = [name] := by
  have hne : name.toList ≠ [] := by simpa using h.notEmpty
  have hchain : name.toList.IsChain fun _ b => (b != '/') = true := by
    have hslash := h.noSlash
    cases hcs : name.toList with
    | nil => exact absurd hcs hne
    | cons a rest =>
      rw [hcs] at hslash
      exact isChain_noSlash a fun hm => hslash (List.mem_cons_of_mem a hm)
  rw [names, List.splitBy_of_isChain hne hchain, List.map_singleton, filter_noSlash h.noSlash,
    String.ofList_toList]

theorem landing_name {name : String} (h : IsName name) (here : Path) :
    landing here [name] = here ++ [name] := by
  simp [landing, h.notEmpty, h.notHere, h.notUp]

/-- A name below a path leads to the folder of that name below where the path leads. -/
theorem landing_joinPath {name : String} (h : IsName name) (path : String) :
    landing [] (names (joinPath path name)) = landing [] (names path) ++ [name] := by
  have hstart : name.startsWith "/" = false := by
    rw [String.startsWith_string_eq_false_iff]
    rintro ⟨rest, hrest⟩
    refine h.noSlash ?_
    rw [← hrest]
    simp
  have hbelow (front : String) : landing [] (names (front ++ "/" ++ name)) =
      landing [] (names front) ++ [name] := by
    rw [names_append_slash, names_slash h, landing_append, landing_name h]
  rw [joinPath, if_neg (by simp [hstart])]
  split
  · next hend =>
    rcases (Bool.or_eq_true _ _).mp hend with hempty | hslash
    · have hpath : path = "" := by simpa using hempty
      rw [hpath, String.empty_append, names_self h, landing_name h]
      rfl
    · rw [String.endsWith_eq_endsWith_toSlice, String.Slice.endsWith_string_iff] at hslash
      obtain ⟨front, hfront⟩ := hslash
      obtain rfl : path = String.ofList front ++ "/" := by
        rw [String.copy_toSlice] at hfront
        rw [← String.ofList_toList (s := path), ← hfront, String.ofList_append]
        rfl
      have hsame : landing [] (names (String.ofList front ++ "/")) =
          landing [] (names (String.ofList front)) := by
        have hnames := names_append_slash (String.ofList front) ""
        rw [String.append_empty] at hnames
        rw [hnames, landing_append]
        rfl
      rw [hbelow, hsame]
  · exact hbelow path

end FileTree

namespace FileStore

variable {s a b : FileStore} {t t' : FileTree} {c : Commit} {p : Path} {ps : List Path} {path : String}

/-- The folder of the store at a path. -/
def home (path : String) : Path := FileTree.landing [] (FileTree.names path)

theorem isName_undoFolder : FileTree.IsName undoFolder where
  noSlash := by decide
  notEmpty := by decide
  notHere := by decide
  notUp := by decide

theorem eq_home_of_open? (h : open? path t = (.ok s, t')) : s = ⟨home path, path⟩ := by
  unfold open? FileTree.makeFolders at h
  split at h
  · cases h
  · next folder made hmade =>
    cases h
    split at hmade
    · rw [FileTree.eq_landing_of_walk hmade, FileTree.landing_joinPath isName_undoFolder, FileTree.parent,
        List.dropLast_concat]
      rfl
    · cases hmade

/-- Games with different names of their own have different folders. -/
theorem home_joinPath_inj {dir game game' : String} (h : FileTree.IsName game) (h' : FileTree.IsName game')
    (heq : home (FileTree.joinPath dir game) = home (FileTree.joinPath dir game')) : game = game' := by
  rw [home, home, FileTree.landing_joinPath h, FileTree.landing_joinPath h'] at heq
  simpa using heq

/-- The file of the current state, and everything in the undo folder with a name of a record. -/
def Owns (s : FileStore) (p : Path) : Prop :=
  p = s.currentPath ∨ ∃ name, p = s.base ++ [undoFolder] ++ [name] ∧ undoHeight? name ≠ none

theorem owns_currentPath (s : FileStore) : s.Owns s.currentPath := .inl rfl

theorem owns_undoPath (s : FileStore) (tip : Tip) : s.Owns (s.undoPath tip) :=
  .inr ⟨undoName tip, undoPath_eq s tip, by rw [undoHeight?_undoName]; nofun⟩

theorem undoHeight?_currentName : undoHeight? currentName = none := by decide +kernel

theorem not_owns_beside (s : FileStore) (folder : Path) (name : String) :
    ¬s.Owns (beside (folder ++ [name])) := by
  rw [beside_concat]
  rintro (heq | ⟨other, heq, hrecord⟩)
  · rw [currentPath] at heq
    have hname : name ++ ".tmp" = currentName := by simpa using (List.append_inj' heq rfl).2
    have hlast := congrArg (fun text => text.toList.getLast?) hname
    simp [String.toList_append, currentName] at hlast
  · have hname : name ++ ".tmp" = other := by simpa using (List.append_inj' heq rfl).2
    rw [← hname, undoHeight?_tmp] at hrecord
    exact hrecord rfl

/-- A file belongs to the stores of one folder. -/
theorem base_eq_of_owns (ha : a.Owns p) (hb : b.Owns p) : a.base = b.base := by
  rcases ha with rfl | ⟨name, rfl, hname⟩ <;> rcases hb with heq | ⟨other, heq, hother⟩
  · exact (List.append_inj' heq rfl).1
  · have hcurrent : currentName = other := by simpa using (List.append_inj' heq rfl).2
    rw [← hcurrent, undoHeight?_currentName] at hother
    exact absurd rfl hother
  · have hcurrent : name = currentName := by simpa using (List.append_inj' heq rfl).2
    rw [hcurrent, undoHeight?_currentName] at hname
    exact absurd rfl hname
  · exact (List.append_inj' (List.append_inj' heq rfl).1 rfl).1

theorem owns_congr (h : a.base = b.base) : a.Owns p ↔ b.Owns p := by
  rw [Owns, Owns, currentPath, currentPath, h]

/-- The answers of a store are the same. -/
structure SameAnswers (s : FileStore) (t t' : FileTree) : Prop where
  load : s.load t' = s.load t
  records : s.SameRecords t t'

theorem SameAnswers.of_eqOff (h : t.EqOff ps t') (hps : ∀ p ∈ ps, ¬s.Owns p) : s.SameAnswers t t' where
  load := load_eq_of_node? (h.node?_eq fun hm => hps _ hm (owns_currentPath s))
  records := .of_eqOff h fun p hp name heq => by
    by_contra hrecord
    exact hps p hp (.inr ⟨name, heq, hrecord⟩)

theorem not_owns_of_mem_places (hne : a.base ≠ b.base) (hp : p ∈ a.places c) : ¬b.Owns p := by
  have hmine {q : Path} (hq : a.Owns q) : ¬b.Owns q := fun hb => hne (base_eq_of_owns hq hb)
  have hundo : ¬b.Owns (beside (a.undoPath c.tip)) := by
    rw [undoPath_eq]
    exact not_owns_beside b _ _
  have hcurrent : ¬b.Owns (beside a.currentPath) := not_owns_beside b _ _
  unfold places at hp
  cases hc : c.undo with
  | none =>
    rw [hc] at hp
    simp only [List.nil_append, List.mem_cons, List.not_mem_nil, or_false] at hp
    rcases hp with rfl | rfl
    · exact hcurrent
    · exact hmine (owns_currentPath a)
  | some record =>
    rw [hc] at hp
    simp only [List.cons_append, List.nil_append, List.mem_cons, List.not_mem_nil, or_false] at hp
    rcases hp with rfl | rfl | rfl | rfl
    · exact hundo
    · exact hmine (owns_undoPath a c.tip)
    · exact hcurrent
    · exact hmine (owns_currentPath a)

theorem eqOff_commit (s : FileStore) (c : Commit) (t : FileTree) : t.EqOff (s.places c) (s.commit c t).2 :=
  (attempts_commit s c t).eqOff

theorem eqOff_removeAll {folder : Path} {count : Nat} {entries : List (UInt64 × String)} :
    t.EqOff (entries.map fun entry => folder ++ [entry.2]) (removeAll folder count entries t).2 := by
  induction entries generalizing count t with
  | nil => exact .refl _ t
  | cons entry rest ih =>
    obtain ⟨height, name⟩ := entry
    unfold removeAll
    split
    · exact .refl _ t
    · next removed hremove =>
      obtain ⟨⟨content, hfile⟩, rfl⟩ := FileTree.remove?_eq_some hremove
      have hfree : t.isFolder (folder ++ [name]) = false := by
        rw [FileTree.isFolder, hfile]
        rfl
      exact ((FileTree.EqOff.erase (by simp) hfree).mono (by simp)).trans
        (ih.mono fun p hp => List.mem_cons_of_mem _ hp)

/-- Pruning changes nothing but records. -/
theorem exists_eqOff_prune (s : FileStore) (height : UInt64) (t : FileTree) :
    ∃ ps, t.EqOff ps (s.prune height t).2 ∧ ∀ p ∈ ps, s.Owns p := by
  unfold prune
  cases he : s.undoEntries t with
  | error e => exact ⟨[], .refl [] t, nofun⟩
  | ok entries =>
    refine ⟨_, eqOff_removeAll, fun p hp => ?_⟩
    obtain ⟨entry, hentry, rfl⟩ := List.mem_map.mp hp
    have hheight := ((mem_undoEntries he).mp ((List.takeWhile_sublist _).subset hentry)).2
    exact .inr ⟨entry.2, rfl, by rw [hheight]; nofun⟩

/-- A store changes no answer of one with another folder. -/
theorem sameAnswers_commit (hne : a.base ≠ b.base) (c : Commit) (t : FileTree) :
    b.SameAnswers t (a.commit c t).2 :=
  .of_eqOff (eqOff_commit a c t) fun _ hp => not_owns_of_mem_places hne hp

theorem sameAnswers_prune (hne : a.base ≠ b.base) (height : UInt64) (t : FileTree) :
    b.SameAnswers t (a.prune height t).2 := by
  obtain ⟨ps, heq, hps⟩ := exists_eqOff_prune a height t
  exact .of_eqOff heq fun p hp hb => hne (base_eq_of_owns (hps p hp) hb)

/-- What is committed to a store is the current state of every store with the same folder. -/
theorem load_shared (hsame : a.base = b.base) (hreaches : b.reaches currentName = true) (hsmall : c.Small)
    (h : a.commit c t = (.ok (), t')) : b.load t' = .ok (some c.stored) := by
  obtain ⟨hnode, -, -, -⟩ := commit_spec h
  have hstored : t'.node? b.currentPath = (some c.stored).map fun stored => .file stored.encode := by
    rw [currentPath, ← hsame, ← currentPath, hnode, if_pos rfl]
    rfl
  refine readRecord_eq hstored (fun _ => hreaches) ?_
  rintro _ ⟨⟩
  exact StoredState.decode?_encode hsmall.1

end FileStore

end ChainFollower
