import ChainFollower.Proofs.Game.Play
import ChainFollower.Proofs.Game.Registry
import ChainFollower.Proofs.Lookup
import Mathlib.Data.String.Basic

namespace ChainFollower

namespace Registry

open Json (Codec)

namespace Table

/-- Names in ascending order, each once. -/
def Ascending (t : Table) : Prop := (t.map Prod.fst).Pairwise (· < ·)

variable {t t' : Table} {name value key : String}

theorem lookup_insert (name value : String) (t : Table) (key : String) :
    (insert name value t).lookup key = if key = name then some value else t.lookup key := by
  induction t with
  | nil => rw [insert, lookup_cons_if]
  | cons entry rest ih =>
    obtain ⟨n, v⟩ := entry
    rw [insert]
    split
    · rw [lookup_cons_if]
    · split
      · next heq =>
        subst heq
        rw [lookup_cons_if, lookup_cons_if]
        split <;> rfl
      · next hne =>
        rw [lookup_cons_if, lookup_cons_if, ih]
        by_cases hkey : key = n
        · rw [if_pos hkey, if_neg (fun h => hne (h.symm.trans hkey)), if_pos hkey]
        · rw [if_neg hkey, if_neg hkey]

theorem lookup_remove (name : String) (t : Table) (key : String) :
    (t.remove name).lookup key = if key = name then none else t.lookup key := by
  rw [remove, lookup_filter_key (· != name)]
  by_cases h : key = name <;> simp [h]

/-- Of several entries for a name the last one counts. -/
theorem lookup_foldl_insert (entries : List (String × String)) (t : Table) (key : String) :
    (entries.foldl (fun t (name, value) => insert name value t) t).lookup key =
      (entries.reverse.lookup key).or (t.lookup key) := by
  induction entries generalizing t with
  | nil => rfl
  | cons entry rest ih =>
    obtain ⟨n, v⟩ := entry
    rw [List.foldl_cons, ih, lookup_insert, List.reverse_cons, List.lookup_append, lookup_cons_if,
      Option.or_assoc]
    by_cases h : key = n <;> simp [h]

theorem mem_insert (h : key ∈ (insert name value t).map Prod.fst) :
    key = name ∨ key ∈ t.map Prod.fst := by
  induction t with
  | nil => simpa [insert] using h
  | cons entry rest ih =>
    obtain ⟨n, v⟩ := entry
    rw [insert] at h
    split at h
    · simpa using h
    · split at h
      · next heq => simpa [heq] using h
      · rcases List.mem_cons.mp h with rfl | hrest
        · exact .inr List.mem_cons_self
        · exact (ih hrest).imp_right (List.mem_cons_of_mem n)

theorem Ascending.insert (h : t.Ascending) (name value : String) :
    Ascending (Table.insert name value t) := by
  induction t with
  | nil => exact List.pairwise_singleton _ _
  | cons entry rest ih =>
    obtain ⟨n, v⟩ := entry
    obtain ⟨hfirst, hrest⟩ := List.pairwise_cons.mp h
    rw [Table.insert]
    split
    · next hlt =>
      refine List.pairwise_cons.mpr ⟨fun key hkey => ?_, h⟩
      rcases List.mem_cons.mp hkey with rfl | hkey
      · exact hlt
      · exact String.lt_trans hlt (hfirst key hkey)
    · next hge =>
      split
      · next heq =>
        subst heq
        exact h
      · next hne =>
        refine List.pairwise_cons.mpr ⟨fun key hkey => ?_, ih hrest⟩
        rcases mem_insert hkey with rfl | hkey
        · exact ((lt_trichotomy key n).resolve_left hge).resolve_left hne
        · exact hfirst key hkey

theorem Ascending.remove (h : t.Ascending) (name : String) : (t.remove name).Ascending :=
  h.sublist (List.filter_sublist.map Prod.fst)

theorem Ascending.restore (h : t.Ascending) (before : String × Option String) :
    (t.restore before).Ascending := by
  obtain ⟨name, value | value⟩ := before
  · exact h.remove name
  · exact h.insert name value

theorem Ascending.ofEntries (entries : List (String × String)) : (ofEntries entries).Ascending := by
  suffices h : ∀ t : Table, t.Ascending →
      (entries.foldl (fun t (name, value) => Table.insert name value t) t).Ascending from h [] .nil
  induction entries with
  | nil => exact fun t h => h
  | cons entry rest ih => exact fun t h => ih _ (h.insert entry.1 entry.2)

theorem lookup_eq_none_of_lt (h : ∀ k ∈ t.map Prod.fst, key < k) : t.lookup key = none := by
  rw [List.lookup_eq_none_iff]
  intro entry hentry
  have hlt := h entry.1 (List.mem_map_of_mem hentry)
  exact bne_iff_ne.mpr (ne_of_lt hlt)

theorem Ascending.lookup_reverse (h : t.Ascending) (key : String) :
    t.reverse.lookup key = t.lookup key := by
  induction t with
  | nil => rfl
  | cons entry rest ih =>
    obtain ⟨n, v⟩ := entry
    obtain ⟨hfirst, hrest⟩ := List.pairwise_cons.mp h
    rw [List.reverse_cons, List.lookup_append, ih hrest, lookup_cons_if, lookup_cons_if]
    by_cases hkey : key = n
    · rw [hkey, lookup_eq_none_of_lt hfirst]
      rfl
    · rw [if_neg hkey, if_neg hkey, List.lookup_nil, Option.or_none]

/-- A table is determined by what it says of each name. -/
theorem Ascending.ext (h : t.Ascending) (h' : t'.Ascending)
    (hlookup : ∀ key, t.lookup key = t'.lookup key) : t = t' := by
  induction t generalizing t' with
  | nil =>
    cases t' with
    | nil => rfl
    | cons entry' rest' =>
      have hhead := hlookup entry'.1
      rw [List.lookup_cons_self] at hhead
      cases hhead
  | cons entry rest ih =>
    obtain ⟨n, v⟩ := entry
    cases t' with
    | nil =>
      have hhead := hlookup n
      rw [List.lookup_cons_self] at hhead
      cases hhead
    | cons entry' rest' =>
      obtain ⟨n', v'⟩ := entry'
      obtain ⟨hfirst, hrest⟩ := List.pairwise_cons.mp h
      obtain ⟨hfirst', hrest'⟩ := List.pairwise_cons.mp h'
      have hn := hlookup n
      have hn' := hlookup n'
      rw [List.lookup_cons_self] at hn hn'
      -- A smaller first name would be missing in the other table.
      obtain hlt | rfl | hlt := lt_trichotomy n n'
      · have hnone : ((n', v') :: rest').lookup n = none := by
          refine lookup_eq_none_of_lt fun k hk => ?_
          rcases List.mem_cons.mp hk with rfl | hk
          · exact hlt
          · exact String.lt_trans hlt (hfirst' k hk)
        rw [hnone] at hn
        cases hn
      · rw [List.lookup_cons_self] at hn
        obtain rfl := Option.some.inj hn
        congr 1
        refine ih hrest hrest' fun key => ?_
        have hkey := hlookup key
        rw [lookup_cons_if, lookup_cons_if] at hkey
        by_cases heq : key = n
        · rw [heq, lookup_eq_none_of_lt hfirst, lookup_eq_none_of_lt hfirst']
        · rwa [if_neg heq, if_neg heq] at hkey
      · have hnone : ((n, v) :: rest).lookup n' = none := by
          refine lookup_eq_none_of_lt fun k hk => ?_
          rcases List.mem_cons.mp hk with rfl | hk
          · exact hlt
          · exact String.lt_trans hlt (hfirst k hk)
        rw [hnone] at hn'
        cases hn'

theorem Ascending.ofEntries_eq (h : t.Ascending) : Table.ofEntries t = t := by
  refine (Ascending.ofEntries t).ext h fun key => ?_
  rw [Table.ofEntries, lookup_foldl_insert, h.lookup_reverse, List.lookup_nil, Option.or_none]

/-- Setting a name is undone by what the table said of it before. -/
theorem restore_insert (h : t.Ascending) (name value : String) :
    restore (insert name value t) (name, t.lookup name) = t := by
  refine ((h.insert name value).restore _).ext h fun key => ?_
  cases hbefore : t.lookup name with
  | none =>
    rw [restore, lookup_remove, lookup_insert]
    by_cases hkey : key = name
    · rw [if_pos hkey, hkey, hbefore]
    · rw [if_neg hkey, if_neg hkey]
  | some before =>
    rw [restore, lookup_insert, lookup_insert]
    by_cases hkey : key = name
    · rw [if_pos hkey, hkey, hbefore]
    · rw [if_neg hkey, if_neg hkey]

end Table

/-- The texts under a key, if there is nothing else under it. -/
def texts? (key : String) (fields : List (String × Json)) : Option (List String) :=
  (fields.filter fun field => field.1 == key).mapM fun field => field.2.str?

/-- The text under a key. An object that has been read has each key once; of several texts the last one
counts. -/
def textUnder? (key : String) (fields : List (String × Json)) : Option String :=
  (texts? key fields).bind List.getLast?

/-- What a document sets: the name and the value of an object, or the two texts of a list. -/
def setting? : Json → Option (String × String)
  | .obj fields => do return (← textUnder? "name" fields, ← textUnder? "value" fields)
  | .arr [.str name, .str value] => some (name, value)
  | _ => none

/-- What a block sets, in the order of its moves. What sets nothing is passed over. -/
def settings (block : Json) : List (String × String) :=
  match block.field? "moves" with
  | some (.arr items) => items.filterMap setting?
  | _ => []

theorem texts?_cons_self (key : String) (v : Json) (fields : List (String × Json)) :
    texts? key ((key, v) :: fields) = do return (← v.str?) :: (← texts? key fields) := by
  rw [texts?, List.filter_cons_of_pos (by simp), List.mapM_cons]
  rfl

theorem texts?_cons_ne {key k : String} (h : k ≠ key) (v : Json) (fields : List (String × Json)) :
    texts? key ((k, v) :: fields) = texts? key fields := by
  rw [texts?, List.filter_cons_of_neg (by simpa using h)]
  rfl

theorem str?_eq_toOption (j : Json) : j.str? = (Codec.string.ofJson j).toOption := by
  cases j <;> rfl

section Shape

variable {shape : Codec.Shape (Option String × Option String) Move}

/-- The fields of an object fill in the last text under each of the two keys. -/
theorem fillFields_texts (hslots : shape.slots = [.of "name" .string Prod.fst (fun s a => (some a, s.2)),
      .of "value" .string Prod.snd (fun s a => (s.1, some a))])
    (fields : List (String × Json)) (s : Option String × Option String) :
    (shape.fillFields s fields).toOption = do
      let names ← texts? "name" fields
      let values ← texts? "value" fields
      return (names.getLast?.or s.1, values.getLast?.or s.2) := by
  induction fields generalizing s with
  | nil => rfl
  | cons field fields ih =>
    obtain ⟨k, v⟩ := field
    have hslot : shape.slot? k = if "name" = k then some (.of "name" .string Prod.fst fun s a => (some a, s.2))
        else if "value" = k then some (.of "value" .string Prod.snd fun s a => (s.1, some a)) else none := by
      rw [Codec.Shape.slot?, hslots]
      by_cases hname : "name" = k
      · simp [Codec.Slot.of, hname]
      · by_cases hvalue : "value" = k <;> simp [Codec.Slot.of, hname, hvalue]
    rw [Codec.Shape.fillFields, hslot]
    by_cases hname : "name" = k
    · subst hname
      rw [if_pos rfl, texts?_cons_self, texts?_cons_ne (by decide), str?_eq_toOption]
      cases hv : Codec.string.ofJson v with
      | error m => simp [Codec.Slot.of, hv, Except.map, Except.toOption]
      | ok a =>
        simp only [Codec.Slot.of, hv, Except.map, ih]
        cases texts? "name" fields with
        | none => rfl
        | some names => simp [Except.toOption, List.getLast?_cons, Option.or_some]
    · rw [if_neg hname, texts?_cons_ne (Ne.symm hname)]
      by_cases hvalue : "value" = k
      · subst hvalue
        rw [if_pos rfl, texts?_cons_self, str?_eq_toOption]
        cases hv : Codec.string.ofJson v with
        | error m => simp [Codec.Slot.of, hv, Except.map, Except.toOption]
        | ok a =>
          simp only [Codec.Slot.of, hv, Except.map, ih]
          cases texts? "value" fields with
          | none => rfl
          | some values => simp [Except.toOption, List.getLast?_cons, Option.or_some]
      · rw [if_neg hvalue, texts?_cons_ne (Ne.symm hvalue)]
        exact ih s

theorem ofJson_fields (hslots : shape.slots = [.of "name" .string Prod.fst (fun s a => (some a, s.2)),
      .of "value" .string Prod.snd (fun s a => (s.1, some a))])
    (hempty : shape.empty = (none, none))
    (hwhole : ∀ name value, shape.whole (some name, some value) = some ⟨name, value⟩)
    (fields : List (String × Json)) :
    ((shape.ofJson (.obj fields)).toOption.map fun m => (m.name, m.value)) = setting? (.obj fields) := by
  have hfill := fillFields_texts hslots fields (none, none)
  have hfinish : ∀ s : Option String × Option String,
      ((shape.finish s).toOption.map fun m => (m.name, m.value)) = do return (← s.1, ← s.2) := by
    rintro ⟨name | name, value | value⟩ <;> rw [Codec.Shape.finish, hslots]
    · rfl
    · rfl
    · rfl
    · simp [Codec.Slot.of, hwhole, Except.toOption]
  have hofJson : (shape.ofJson (.obj fields)).toOption =
      (shape.fillFields (none, none) fields).toOption.bind fun s => (shape.finish s).toOption := by
    rw [Codec.Shape.ofJson, hempty]
    cases shape.fillFields (none, none) fields <;> rfl
  rw [hofJson, hfill, Option.map_bind, setting?, textUnder?, textUnder?]
  simp only [Function.comp_def, hfinish]
  cases texts? "name" fields with
  | none => rfl
  | some names => cases texts? "value" fields <;> simp

end Shape

theorem ofJson_eq_setting? (j : Json) :
    ((Move.codec.ofJson j).toOption.map fun m => (m.name, m.value)) = setting? j := by
  cases j with
  | obj fields => exact ofJson_fields rfl rfl (fun _ _ => rfl) fields
  | arr items =>
    match items with
    | [] => rfl
    | [x] => cases x <;> rfl
    | [x, y] =>
      cases x with
      | str name => cases y <;> rfl
      | _ => rfl
    | x :: y :: z :: items =>
      cases x with
      | str name => cases y <;> rfl
      | _ => rfl
  | _ => rfl

theorem moves_eq_settings (block : Json) :
    (moves block).map (fun m => (m.name, m.value)) = settings block := by
  cases hfield : block.field? "moves" with
  | none => simp only [moves, settings, hfield]; rfl
  | some value =>
    cases value with
    | arr items =>
      simp only [moves, settings, hfield, List.map_filterMap]
      exact List.filterMap_congr fun j _ => ofJson_eq_setting? j
    | _ => simp only [moves, settings, hfield]; rfl

variable {t : Table}

theorem play_table (ms : List Move) (t : Table) :
    (play ms t).1 = (ms.map fun m => (m.name, m.value)).foldl (fun t (name, value) => t.insert name value) t := by
  induction ms generalizing t with
  | nil => rfl
  | cons m rest ih => exact ih _

theorem ascending_play (ms : List Move) (h : t.Ascending) : (play ms t).1.Ascending := by
  induction ms generalizing t with
  | nil => exact h
  | cons m rest ih => exact ih (h.insert m.name m.value)

/-- Taken back in reverse order, moves leave the table as it was. -/
theorem takeBack_play (ms : List Move) (h : t.Ascending) : takeBack (play ms t).1 (play ms t).2 = t := by
  induction ms generalizing t with
  | nil => rfl
  | cons m rest ih =>
    have hrest := ih (h.insert m.name m.value)
    unfold takeBack at hrest ⊢
    rw [play, List.reverse_cons, List.foldl_concat, hrest]
    exact Table.restore_insert h m.name m.value

theorem forward_ascending (h : t.Ascending) (block : Json) : forward t.encode block =
    .ok ⟨(play (moves block) t).1.encode, Undo.encode (play (moves block) t).2⟩ := by
  rw [forward, decode?_encode_table, h.ofEntries_eq]

theorem backward_ascending (h : t.Ascending) (u : Undo) :
    backward t.encode (Undo.encode u) = .ok (takeBack t u).encode := by
  rw [backward, decode?_encode_table, h.ofEntries_eq]
  simp only [decode?_encode_undo]

/-- Blocks that lead from the empty table to this one, each with the text of the table it was applied to
and the text of what its moves replaced. -/
inductive Leads : Table → List AppliedBlock → Prop
  | start : Leads [] []
  | block {t : Table} {applied : List AppliedBlock} (block : Json) (h : Leads t applied) :
      Leads (play (moves block) t).1
        (⟨block, t.encode, Undo.encode (play (moves block) t).2⟩ :: applied)

/-- The value of a name: the last one that it was set to. -/
def lastValue (settings : List (String × String)) (name : String) : Option String :=
  settings.reverse.lookup name

variable {σ : Type} {start : Tip} {state : Bytes} {a : AppliedBlock} {applied : List AppliedBlock}

theorem Leads.ascending (h : Leads t applied) : t.Ascending := by
  induction h with
  | start => exact .nil
  | block block _ ih => exact ascending_play (moves block) ih

theorem Leads.lookup (h : Leads t applied) (name : String) :
    t.lookup name = lastValue (applied.reverse.flatMap fun a => settings a.block) name := by
  induction h with
  | start => rfl
  | block block _ ih =>
    rw [play_table, moves_eq_settings, Table.lookup_foldl_insert, ih, List.reverse_cons,
      List.flatMap_append, lastValue, lastValue, List.reverse_append, List.lookup_append,
      List.flatMap_singleton]

theorem forward_game (network : Network) (state : Bytes) (block : Json) (s : σ) :
    (game start).forward network state block s = ((forward state block).mapError .refused, s) := rfl

theorem backward_game (network : Network) (state : Bytes) (block : Json) (undo : Bytes) (s : σ) :
    (game start).backward network state block undo s = ((backward state undo).mapError .refused, s) := rfl

theorem Leads.played (h : Leads t applied) (s : σ) :
    (game start : Game σ).Played (fun _ => True) t.encode applied := by
  induction h with
  | start =>
    have hcall : ((game start : Game σ).initial .main s).1 = .ok ⟨Table.encode [], start.height, start.hash⟩ :=
      rfl
    exact .initial .main trivial hcall
  | @block t applied block h ih =>
    have hcall : ((game start : Game σ).forward .main t.encode block s).1 =
        .ok ⟨(play (moves block) t).1.encode, Undo.encode (play (moves block) t).2⟩ := by
      rw [forward_game, forward_ascending h.ascending]
      rfl
    exact .forward .main block ih trivial hcall

theorem Leads.backward_eq (h : Leads t (a :: applied)) :
    backward t.encode a.undo = .ok a.before ∧ ∃ t', Leads t' applied ∧ a.before = t'.encode := by
  cases h with
  | block block h =>
    refine ⟨?_, _, h, rfl⟩
    rw [backward_ascending (ascending_play _ h.ascending), takeBack_play _ h.ascending]

theorem exists_leads (h : (game start : Game σ).Played (fun _ => True) state applied) :
    ∃ t, Leads t applied ∧ state = t.encode := by
  induction h with
  | initial network _ hcall =>
    obtain rfl := Except.ok.inj hcall
    exact ⟨[], .start, rfl⟩
  | forward network block _ _ hcall ih =>
    obtain ⟨t, hleads, rfl⟩ := ih
    rw [forward_game, forward_ascending hleads.ascending] at hcall
    obtain rfl := Except.ok.inj hcall
    exact ⟨_, hleads.block block, rfl⟩
  | backward network _ _ hcall ih =>
    obtain ⟨t, hleads, rfl⟩ := ih
    obtain ⟨hback, t', hleads', hbefore⟩ := hleads.backward_eq
    rw [backward_game, hback] at hcall
    obtain rfl := Except.ok.inj hcall
    exact ⟨t', hleads', hbefore⟩

/-- Whatever the blocks hold, no call fails. The state is always the text of the table, in ascending order,
that has of each name the last value that the applied blocks set, and the last block is undone to the bytes
that it was applied to. -/
theorem played_canonical (hplayed : (game start : Game σ).Played (fun _ => True) state applied) :
    (∃ t : Table, t.Ascending ∧ state = t.encode ∧ ∀ name,
      t.lookup name = lastValue (applied.reverse.flatMap fun a => settings a.block) name) ∧
    ∀ (network : Network) (s : σ),
      (∀ block, ∃ step, (game start).forward network state block s = (.ok step, s)) ∧
      ∀ a earlier, applied = a :: earlier →
        (game start).backward network state a.block a.undo s = (.ok a.before, s) := by
  obtain ⟨t, hleads, rfl⟩ := exists_leads hplayed
  refine ⟨⟨t, hleads.ascending, rfl, hleads.lookup⟩, fun network s => ⟨fun block => ?_, ?_⟩⟩
  · refine ⟨⟨(play (moves block) t).1.encode, Undo.encode (play (moves block) t).2⟩, ?_⟩
    rw [forward_game, forward_ascending hleads.ascending]
    rfl
  · rintro a earlier rfl
    rw [backward_game, hleads.backward_eq.1]
    rfl

/-- A name set twice, with something between that sets nothing. -/
def greetings : Json :=
  .obj [("moves", .arr [.obj [("name", .str "alice"), ("value", .str "a1")], .obj [("bogus", .bool true)],
    .arr [.str "bob", .str "b1"], .obj [("name", .str "alice"), ("value", .str "a2")]])]

/-- A name set to the value that it has, and once more. -/
def answers : Json :=
  .obj [("moves", .arr [.arr [.str "alice", .str "a2"], .obj [("name", .str "carol"), ("value", .str "c1")],
    .arr [.str "alice", .str "a3"]])]

theorem played_canonical_answers :
    (game ⟨0, .zero⟩).Played (fun _ : Unit => True)
      (Table.encode [("alice", "a3"), ("bob", "b1"), ("carol", "c1")])
      [⟨answers, Table.encode [("alice", "a2"), ("bob", "b1")],
        Undo.encode [("alice", some "a2"), ("carol", none), ("alice", some "a2")]⟩,
        ⟨greetings, Table.encode [], Undo.encode [("alice", none), ("bob", none), ("alice", some "a1")]⟩] ∧
    (game ⟨0, .zero⟩).backward .main (Table.encode [("alice", "a3"), ("bob", "b1"), ("carol", "c1")]) answers
        (Undo.encode [("alice", some "a2"), ("carol", none), ("alice", some "a2")]) () =
      (.ok (Table.encode [("alice", "a2"), ("bob", "b1")]), ()) := by
  have hplayed : (game ⟨0, .zero⟩ : Game Unit).Played _ _ _ :=
    Leads.played ((Leads.start.block greetings).block answers) ()
  have hfirst : play (moves greetings) [] =
      ([("alice", "a2"), ("bob", "b1")], [("alice", none), ("bob", none), ("alice", some "a1")]) := rfl
  have hsecond : play (moves answers) [("alice", "a2"), ("bob", "b1")] =
      ([("alice", "a3"), ("bob", "b1"), ("carol", "c1")],
        [("alice", some "a2"), ("carol", none), ("alice", some "a2")]) := rfl
  simp only [hfirst, hsecond] at hplayed
  have hback := ((played_canonical hplayed).2 .main ()).2 _ _ rfl
  exact ⟨hplayed, hback⟩

end Registry

end ChainFollower
