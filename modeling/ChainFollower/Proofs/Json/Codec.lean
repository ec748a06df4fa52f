import ChainFollower.Json.Codec
import ChainFollower.Proofs.Json.Text

namespace ChainFollower

namespace Json

/-- The text of a document begins with no blank and closes no list. -/
def Begins (j : Json) : Prop := ∃ b r, Utf8.encodeChars j.chars = b :: r ∧ isSpace b = false ∧ b ≠ 0x5D

theorem stops_itemsChars (js : List Json) (rest : Bytes) :
    Stops (Utf8.encodeChars (itemsChars js) ++ rest) := by
  cases js with
  | nil => exact .inr (.inl rfl)
  | cons j js => exact .inl rfl

theorem length_le_itemsChars (js : List Json) : js.length ≤ (itemsChars js).length := by
  induction js with
  | nil => exact Nat.zero_le _
  | cons j js ih =>
    rw [itemsChars, List.cons_append, List.length_cons, List.length_cons, List.length_append]
    omega

namespace Codec

/-- The codec reads this value from the text of the document, whatever larger document goes on behind. -/
structure Reads {α : Type} (c : Codec α) (j : Json) (a : α) : Prop where
  begins : j.Begins
  ofBytes : ∀ rest, Stops rest → c.ofBytes (Utf8.encodeChars j.chars ++ rest) = .ok (a, rest)

variable {α β : Type} {c : Codec α} {d : Codec β}

theorem reads_string (s : String) : Reads .string (.str s) s where
  begins := ⟨_, _, rfl, rfl, by decide⟩
  ofBytes rest _ := by
    rw [chars, encodeChars_quoteChars]
    simp only [string, text, skipSpace_cons (show isSpace 0x22 = false from rfl), if_true, string?_quoted]

theorem reads_nullable_none : Reads (.nullable c) .null none where
  begins := ⟨_, _, rfl, rfl, by decide⟩
  ofBytes _ _ := rfl

theorem reads_nullable_string (s : String) : Reads (.nullable .string) (.str s) (some s) where
  begins := ⟨_, _, rfl, rfl, by decide⟩
  ofBytes rest hrest := by
    have hread := (reads_string s).ofBytes rest hrest
    rw [chars, encodeChars_quoteChars] at hread ⊢
    simp only [nullable, skipSpace_cons (show isSpace 0x22 = false from rfl), hread]
    rfl

theorem Reads.parse {j : Json} {a : α} (h : Reads c j a) : c.parse j.bytes = .ok a := by
  have hread := h.ofBytes [] trivial
  rw [List.append_nil] at hread
  rw [Codec.parse, show c.ofBytes j.bytes = .ok (a, []) from hread]
  rfl

/-- Where an element comes next. -/
theorem place_first {j : Json} (h : j.Begins) (rest : Bytes) :
    place true (Utf8.encodeChars j.chars ++ rest) = .ok (.element (Utf8.encodeChars j.chars ++ rest)) := by
  obtain ⟨b, r, hhead, hspace, hclose⟩ := h
  rw [hhead, List.cons_append]
  simp only [place, skipSpace_cons hspace, if_neg hclose, if_true]

theorem place_comma {j : Json} (h : j.Begins) (rest : Bytes) :
    place false (0x2C :: (Utf8.encodeChars j.chars ++ rest)) =
      .ok (.element (Utf8.encodeChars j.chars ++ rest)) := by
  obtain ⟨b, r, hhead, hspace, hclose⟩ := h
  rw [hhead, List.cons_append]
  simp only [place, skipSpace_cons (show isSpace 0x2C = false from rfl), skipSpace_cons hspace,
    if_neg hclose]
  rfl

theorem encodeChars_itemsChars_cons (j : Json) (js : List Json) (rest : Bytes) :
    Utf8.encodeChars (itemsChars (j :: js)) ++ rest =
      0x2C :: (Utf8.encodeChars j.chars ++ (Utf8.encodeChars (itemsChars js) ++ rest)) := by
  rw [itemsChars, List.cons_append, Utf8.encodeChars_cons, Utf8.encodeChars_append, List.append_assoc,
    List.append_assoc]
  rfl

theorem elements_itemsChars {write : α → Json} {as : List α} (h : ∀ a ∈ as, Reads c (write a) a)
    {fuel : Nat} (hfuel : as.length < fuel) (rest : Bytes) :
    elements c fuel false (Utf8.encodeChars (itemsChars (as.map write)) ++ rest) =
      .ok (as, 0x5D :: rest) := by
  induction as generalizing fuel with
  | nil =>
    obtain ⟨fuel, rfl⟩ := Nat.exists_eq_add_of_lt hfuel
    rfl
  | cons a as ih =>
    obtain ⟨fuel, rfl⟩ : ∃ n, fuel = n + 1 := Nat.exists_eq_add_one.mpr (Nat.zero_lt_of_lt hfuel)
    have ha := h a List.mem_cons_self
    have hmore := ih (fun b hb => h b (List.mem_cons_of_mem a hb))
      (show as.length < fuel by rw [List.length_cons] at hfuel; omega)
    rw [List.map_cons, encodeChars_itemsChars_cons, elements, place_comma ha.begins]
    simp only [ha.ofBytes _ (stops_itemsChars _ rest), hmore]
    rfl

theorem encodeChars_arr_cons (j : Json) (js : List Json) (rest : Bytes) :
    Utf8.encodeChars (arr (j :: js)).chars ++ rest =
      0x5B :: (Utf8.encodeChars j.chars ++ (Utf8.encodeChars (itemsChars js) ++ rest)) := by
  rw [chars, List.cons_append, Utf8.encodeChars_cons, Utf8.encodeChars_append, List.append_assoc,
    List.append_assoc]
  rfl

theorem reads_list {write : α → Json} {as : List α} (h : ∀ a ∈ as, Reads c (write a) a) :
    Reads (.list c) (.arr (as.map write)) as := by
  constructor
  · cases as <;> exact ⟨_, _, rfl, rfl, by decide⟩
  · intro rest _
    cases as with
    | nil => rfl
    | cons a as =>
      have ha := h a List.mem_cons_self
      rw [List.map_cons, encodeChars_arr_cons]
      simp only [list, skipSpace_cons (show isSpace 0x5B = false from rfl), if_true]
      rw [elements, place_first ha.begins]
      simp only [ha.ofBytes _ (stops_itemsChars _ rest)]
      rw [elements_itemsChars (fun b hb => h b (List.mem_cons_of_mem a hb))]
      · rfl
      · have hitems := length_le_itemsChars (as.map write)
        have hbytes := Utf8.length_le_encodeChars (itemsChars (as.map write))
        obtain ⟨b, r, hhead, _⟩ := ha.begins
        rw [List.length_map] at hitems
        rw [hhead, List.length_append, List.length_cons, List.length_append]
        omega

theorem reads_pair {x y : Json} {a : α} {b : β} (ha : Reads c x a) (hb : Reads d y b) :
    Reads (.pair c d) (.arr [x, y]) (a, b) where
  begins := ⟨_, _, rfl, rfl, by decide⟩
  ofBytes rest _ := by
    rw [encodeChars_arr_cons]
    simp only [pair, skipSpace_cons (show isSpace 0x5B = false from rfl), if_true]
    rw [place_first ha.begins]
    simp only [ha.ofBytes _ (stops_itemsChars _ rest)]
    rw [encodeChars_itemsChars_cons, place_comma hb.begins]
    simp only [hb.ofBytes _ (stops_itemsChars _ rest)]
    rfl

theorem stops_fieldsChars (fields : List (String × Json)) (rest : Bytes) :
    Stops (Utf8.encodeChars (fieldsChars fields) ++ rest) := by
  cases fields with
  | nil => exact .inr (.inr rfl)
  | cons field fields => exact .inl rfl

theorem length_le_fieldsChars (fields : List (String × Json)) :
    fields.length ≤ (fieldsChars fields).length := by
  induction fields with
  | nil => exact Nat.zero_le _
  | cons field fields ih =>
    rw [fieldsChars, List.cons_append, List.cons_append, List.length_cons, List.length_cons,
      List.length_append]
    omega

/-- A field at the front, from the opening quote of its key on. -/
theorem encodeChars_field (k : String) (v : Json) (fields : List (String × Json)) (rest : Bytes) :
    Utf8.encodeChars (quoteChars k ++ ':' :: v.chars ++ fieldsChars fields) ++ rest =
      0x22 :: (Utf8.encodeChars (k.toList.flatMap escapeChar) ++
        0x22 :: 0x3A :: (Utf8.encodeChars v.chars ++ (Utf8.encodeChars (fieldsChars fields) ++ rest))) := by
  rw [List.append_assoc, Utf8.encodeChars_append, List.append_assoc, encodeChars_quoteChars,
    List.cons_append, Utf8.encodeChars_cons, Utf8.encodeChars_append, List.append_assoc, List.append_assoc]
  rfl

theorem encodeChars_fieldsChars_cons (k : String) (v : Json) (fields : List (String × Json))
    (rest : Bytes) : Utf8.encodeChars (fieldsChars ((k, v) :: fields)) ++ rest =
      0x2C :: (Utf8.encodeChars (quoteChars k ++ ':' :: v.chars ++ fieldsChars fields) ++ rest) := by
  rw [fieldsChars, List.cons_append, List.cons_append, Utf8.encodeChars_cons]
  rfl

theorem encodeChars_obj_cons (k : String) (v : Json) (fields : List (String × Json)) (rest : Bytes) :
    Utf8.encodeChars (obj ((k, v) :: fields)).chars ++ rest =
      0x7B :: (Utf8.encodeChars (quoteChars k ++ ':' :: v.chars ++ fieldsChars fields) ++ rest) := by
  rw [chars, List.cons_append, List.cons_append, Utf8.encodeChars_cons]
  rfl

theorem readEntries_field {write : α → Json} {k : String} {a : α} {entries : List (String × α)}
    (h : ∀ entry ∈ (k, a) :: entries, Reads c (write entry.2) entry.2) {fuel : Nat}
    (hfuel : entries.length < fuel) (rest : Bytes) :
    readEntries c fuel (Utf8.encodeChars (quoteChars k ++ ':' :: (write a).chars ++
      fieldsChars (entries.map fun entry => (entry.1, write entry.2))) ++ rest) =
      .ok ((k, a) :: entries, rest) := by
  induction entries generalizing fuel k a with
  | nil =>
    obtain ⟨fuel, rfl⟩ : ∃ n, fuel = n + 1 := Nat.exists_eq_add_one.mpr (Nat.zero_lt_of_lt hfuel)
    have ha := (h _ List.mem_cons_self).ofBytes _ (stops_fieldsChars [] rest)
    rw [encodeChars_field, readEntries]
    simp only [skipSpace_cons (show isSpace 0x22 = false from rfl), if_true, string?_quoted,
      skipSpace_cons (show isSpace 0x3A = false from rfl), List.map_nil, ha]
    rfl
  | cons entry entries ih =>
    obtain ⟨fuel, rfl⟩ : ∃ n, fuel = n + 1 := Nat.exists_eq_add_one.mpr (Nat.zero_lt_of_lt hfuel)
    obtain ⟨k', a'⟩ := entry
    have ha := (h _ List.mem_cons_self).ofBytes _ (stops_fieldsChars
      (((k', a') :: entries).map fun entry => (entry.1, write entry.2)) rest)
    have hmore := ih (fun e he => h e (List.mem_cons_of_mem _ he))
      (show entries.length < fuel by rw [List.length_cons] at hfuel; omega)
    rw [encodeChars_field, readEntries]
    simp only [skipSpace_cons (show isSpace 0x22 = false from rfl), if_true, string?_quoted,
      skipSpace_cons (show isSpace 0x3A = false from rfl), ha]
    rw [List.map_cons, encodeChars_fieldsChars_cons]
    simp only [skipSpace_cons (show isSpace 0x2C = false from rfl), if_true, hmore]
    rfl

theorem reads_entries {write : α → Json} {entries : List (String × α)}
    (h : ∀ entry ∈ entries, Reads c (write entry.2) entry.2) :
    Reads (.entries c) (.obj (entries.map fun entry => (entry.1, write entry.2))) entries := by
  constructor
  · cases entries <;> exact ⟨_, _, rfl, rfl, by decide⟩
  · intro rest _
    cases entries with
    | nil => rfl
    | cons entry entries =>
      obtain ⟨k, a⟩ := entry
      have hlength : entries.length < (Utf8.encodeChars (quoteChars k ++ ':' :: (write a).chars ++
          fieldsChars (entries.map fun entry => (entry.1, write entry.2))) ++ rest).length + 1 := by
        have hfields := length_le_fieldsChars (entries.map fun entry => (entry.1, write entry.2))
        have hbytes := Utf8.length_le_encodeChars (quoteChars k ++ ':' :: (write a).chars ++
          fieldsChars (entries.map fun entry => (entry.1, write entry.2)))
        rw [List.length_map] at hfields
        rw [List.length_append] at hbytes ⊢
        omega
      have hfield := readEntries_field h hlength rest
      rw [List.map_cons, encodeChars_obj_cons]
      simp only [Codec.entries, skipSpace_cons (show isSpace 0x7B = false from rfl), if_true]
      rw [encodeChars_field] at hfield ⊢
      simp only [skipSpace_cons (show isSpace 0x22 = false from rfl), hfield]
      rfl

/-- A record of one field. -/
theorem reads_shape {name field : String} {j : Json} {a : α} (h : Reads c j a) :
    Reads (Shape.codec ⟨name, none, [.of field c id fun _ a => some a], id⟩) (.obj [(field, j)]) a where
  begins := ⟨_, _, rfl, rfl, by decide⟩
  ofBytes rest _ := by
    have hread := h.ofBytes _ (stops_fieldsChars [] rest)
    rw [encodeChars_obj_cons, encodeChars_field]
    simp only [Shape.codec, Shape.ofBytes, skipSpace_cons (show isSpace 0x7B = false from rfl),
      skipSpace_cons (show isSpace 0x22 = false from rfl), Shape.readMembers, string?_quoted,
      Shape.slot?, List.find?, Slot.of, beq_self_eq_true,
      skipSpace_cons (show isSpace 0x3A = false from rfl), hread]
    rfl

end Codec

end Json

end ChainFollower
