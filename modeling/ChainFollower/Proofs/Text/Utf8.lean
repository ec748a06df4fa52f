import ChainFollower.Text.Utf8

namespace ChainFollower

namespace Utf8

theorem toNat_byte {n : Nat} (h : n < 256) : (UInt8.ofNat n).toNat = n := by
  rw [UInt8.toNat_ofNat']
  omega

theorem byte_eq {m n : Nat} (hm : m < 256) (hn : n < 256) :
    UInt8.ofNat m = UInt8.ofNat n ↔ m = n := by
  rw [← UInt8.toNat_inj, toNat_byte hm, toNat_byte hn]

theorem byte_lt {m n : Nat} (hm : m < 256) (hn : n < 256) :
    UInt8.ofNat m < UInt8.ofNat n ↔ m < n := by
  rw [UInt8.lt_iff_toNat_lt, toNat_byte hm, toNat_byte hn]

theorem byte_le {m n : Nat} (hm : m < 256) (hn : n < 256) :
    UInt8.ofNat m ≤ UInt8.ofNat n ↔ m ≤ n := by
  rw [UInt8.le_iff_toNat_le, toNat_byte hm, toNat_byte hn]

theorem between_byte (low : Nat) {n : Nat} (high : Nat) (hl : low ≤ n) (hh : n ≤ high) (h : high < 256) :
    (decide (UInt8.ofNat low ≤ UInt8.ofNat n) && decide (UInt8.ofNat n ≤ UInt8.ofNat high)) = true := by
  have hlow := (byte_le (m := low) (n := n) (by omega) (by omega)).mpr hl
  have hhigh := (byte_le (m := n) (n := high) (by omega) h).mpr hh
  simp only [hlow, hhigh, decide_true, Bool.and_self]

theorem not_le_byte {n : Nat} (high : Nat) (hn : n < 256) (h : high < n) : ¬UInt8.ofNat n ≤ UInt8.ofNat high := by
  rw [byte_le hn (by omega)]
  omega

theorem isTail_byte {n : Nat} (h : n < 64) : isTail (UInt8.ofNat (n + 128)) = true :=
  between_byte 0x80 0xBF (by omega) (by omega) (by omega)

theorem tailBits_byte {n : Nat} (h : n < 64) : tailBits (UInt8.ofNat (n + 128)) = n := by
  rw [tailBits, toNat_byte (by omega)]
  omega

theorem isSecondOfThree_byte {a n : Nat} (ha : a < 256) (hn : n < 64) (hE0 : a = 0xE0 → 32 ≤ n)
    (hED : a = 0xED → n < 32) : isSecondOfThree (UInt8.ofNat a) (UInt8.ofNat (n + 128)) = true := by
  unfold isSecondOfThree
  split
  · next h =>
    have hlong := hE0 ((byte_eq (n := 0xE0) ha (by omega)).mp (eq_of_beq h))
    exact between_byte 0xA0 0xBF (by omega) (by omega) (by omega)
  · split
    · next h =>
      have hsurrogate := hED ((byte_eq (n := 0xED) ha (by omega)).mp (eq_of_beq h))
      exact between_byte 0x80 0x9F (by omega) (by omega) (by omega)
    · exact isTail_byte hn

theorem isSecondOfFour_byte {a n : Nat} (ha : a < 256) (hn : n < 64) (hF0 : a = 0xF0 → 16 ≤ n)
    (hF4 : a = 0xF4 → n < 16) : isSecondOfFour (UInt8.ofNat a) (UInt8.ofNat (n + 128)) = true := by
  unfold isSecondOfFour
  split
  · next h =>
    have hlong := hF0 ((byte_eq (n := 0xF0) ha (by omega)).mp (eq_of_beq h))
    exact between_byte 0x90 0xBF (by omega) (by omega) (by omega)
  · split
    · next h =>
      have hlast := hF4 ((byte_eq (n := 0xF4) ha (by omega)).mp (eq_of_beq h))
      exact between_byte 0x80 0x8F (by omega) (by omega) (by omega)
    · exact isTail_byte hn

variable {v : Nat}

theorem decodeFrom_one (i : Nat) (rest : Bytes) (h : v < 0x80) :
    decodeFrom i (UInt8.ofNat v :: rest) = (decodeFrom (i + 1) rest).map (Char.ofNat v :: ·) := by
  have ha : UInt8.ofNat v < 0x80 := (byte_lt (n := 0x80) (by omega) (by omega)).mpr h
  rw [decodeFrom.eq_def]
  simp only [if_pos ha, toNat_byte (show v < 256 by omega)]

theorem not_lt_byte {n : Nat} (hn : n < 256) (h : 0x80 ≤ n) : ¬UInt8.ofNat n < 0x80 := by
  rw [show (0x80 : UInt8) = UInt8.ofNat 0x80 from rfl, byte_lt hn (by omega)]
  omega

theorem decodeFrom_two (i : Nat) (rest : Bytes) (h : 0x80 ≤ v) (h' : v < 0x800) :
    decodeFrom i (UInt8.ofNat (v / 64 % 32 + 192) :: UInt8.ofNat (v % 64 + 128) :: rest) =
      (decodeFrom (i + 2) rest).map (Char.ofNat v :: ·) := by
  have hb : v % 64 < 64 := Nat.mod_lt v (by omega)
  generalize ha : v / 64 % 32 + 192 = a
  have h1 : ¬UInt8.ofNat a < 0x80 := not_lt_byte (by omega) (by omega)
  have h2 : (decide (0xC2 ≤ UInt8.ofNat a) && decide (UInt8.ofNat a ≤ 0xDF)) = true :=
    between_byte 0xC2 0xDF (by omega) (by omega) (by omega)
  have hv : a % 32 * 64 + v % 64 = v := by omega
  rw [decodeFrom.eq_def]
  simp only [if_neg h1]
  rw [if_pos h2]
  simp only [isTail_byte hb, tailBits_byte hb, toNat_byte (show a < 256 by omega), hv, if_true]

theorem decodeFrom_three (i : Nat) (rest : Bytes) (h : 0x800 ≤ v) (h' : v < 0x10000) (hs : v < 0xD800 ∨ 0xDFFF < v) :
    decodeFrom i (UInt8.ofNat (v / 4096 % 16 + 224) :: UInt8.ofNat (v / 64 % 64 + 128) ::
        UInt8.ofNat (v % 64 + 128) :: rest) =
      (decodeFrom (i + 3) rest).map (Char.ofNat v :: ·) := by
  have hb : v / 64 % 64 < 64 := Nat.mod_lt _ (by omega)
  have hc : v % 64 < 64 := Nat.mod_lt v (by omega)
  generalize ha : v / 4096 % 16 + 224 = a
  have h1 : ¬UInt8.ofNat a < 0x80 := not_lt_byte (by omega) (by omega)
  have h2 : ¬UInt8.ofNat a ≤ 0xDF := not_le_byte 0xDF (by omega) (by omega)
  have h3 : (decide (0xE0 ≤ UInt8.ofNat a) && decide (UInt8.ofNat a ≤ 0xEF)) = true :=
    between_byte 0xE0 0xEF (by omega) (by omega) (by omega)
  have hsecond := isSecondOfThree_byte (a := a) (n := v / 64 % 64) (by omega) hb (by omega) (by omega)
  have hv : (a % 16 * 64 + v / 64 % 64) * 64 + v % 64 = v := by omega
  rw [decodeFrom.eq_def]
  simp only [if_neg h1, h2, decide_false, Bool.and_false, Bool.false_eq_true, if_false]
  rw [if_pos h3]
  simp only [hsecond, isTail_byte hc, tailBits_byte hb, tailBits_byte hc,
    toNat_byte (show a < 256 by omega), hv, if_true]

theorem decodeFrom_four (i : Nat) (rest : Bytes) (h : 0x10000 ≤ v) (h' : v < 0x110000) :
    decodeFrom i (UInt8.ofNat (v / 262144 % 8 + 240) :: UInt8.ofNat (v / 4096 % 64 + 128) ::
        UInt8.ofNat (v / 64 % 64 + 128) :: UInt8.ofNat (v % 64 + 128) :: rest) =
      (decodeFrom (i + 4) rest).map (Char.ofNat v :: ·) := by
  have hb : v / 4096 % 64 < 64 := Nat.mod_lt _ (by omega)
  have hc : v / 64 % 64 < 64 := Nat.mod_lt _ (by omega)
  have hd : v % 64 < 64 := Nat.mod_lt v (by omega)
  generalize ha : v / 262144 % 8 + 240 = a
  have h1 : ¬UInt8.ofNat a < 0x80 := not_lt_byte (by omega) (by omega)
  have h2 : ¬UInt8.ofNat a ≤ 0xDF := not_le_byte 0xDF (by omega) (by omega)
  have h3 : ¬UInt8.ofNat a ≤ 0xEF := not_le_byte 0xEF (by omega) (by omega)
  have h4 : (decide (0xF0 ≤ UInt8.ofNat a) && decide (UInt8.ofNat a ≤ 0xF4)) = true :=
    between_byte 0xF0 0xF4 (by omega) (by omega) (by omega)
  have hsecond := isSecondOfFour_byte (a := a) (n := v / 4096 % 64) (by omega) hb (by omega) (by omega)
  have hv : ((a % 8 * 64 + v / 4096 % 64) * 64 + v / 64 % 64) * 64 + v % 64 = v := by omega
  rw [decodeFrom.eq_def]
  simp only [if_neg h1, h2, h3, decide_false, Bool.and_false, Bool.false_eq_true, if_false]
  rw [if_pos h4]
  simp only [hsecond, isTail_byte hc, isTail_byte hd, tailBits_byte hb, tailBits_byte hc,
    tailBits_byte hd, toNat_byte (show a < 256 by omega), hv, if_true]

theorem decodeFrom_encodeChar (c : Char) (i : Nat) (rest : Bytes) :
    decodeFrom i (String.utf8EncodeChar c ++ rest) =
      (decodeFrom (i + (String.utf8EncodeChar c).length) rest).map (c :: ·) := by
  have hvalid := c.valid
  have hchar : Char.ofNat c.val.toNat = c := Char.ofNat_toNat c
  unfold UInt32.isValidChar Nat.isValidChar at hvalid
  unfold String.utf8EncodeChar
  generalize c.val.toNat = v at hvalid hchar ⊢
  simp only
  split
  · simpa [hchar] using decodeFrom_one i rest (show v < 0x80 by omega)
  · split
    · simpa [hchar] using
        decodeFrom_two i rest (show 0x80 ≤ v by omega) (by omega)
    · split
      · simpa [hchar] using
          decodeFrom_three i rest (show 0x800 ≤ v by omega) (by omega) (by omega)
      · simpa [hchar] using
          decodeFrom_four i rest (show 0x10000 ≤ v by omega) (by omega)

theorem decodeFrom_encodeChars (cs : List Char) (i : Nat) : decodeFrom i (encodeChars cs) = .ok cs := by
  induction cs generalizing i with
  | nil => rfl
  | cons c cs ih =>
    rw [encodeChars, List.flatMap_cons, decodeFrom_encodeChar]
    rw [encodeChars] at ih
    rw [ih]
    rfl

theorem decode_encode (s : String) : decode (encode s) = .ok s := by
  rw [decode, encode, decodeFrom_encodeChars]
  exact congrArg Except.ok (String.ofList_toList)

theorem decode?_encode (s : String) : decode? (encode s) = some s := by
  rw [decode?, decode_encode]
  rfl

theorem encodeChar_ofNat (h : v.isValidChar) :
    String.utf8EncodeChar (Char.ofNat v) =
      if v ≤ 0x7F then [UInt8.ofNat v]
      else if v ≤ 0x7FF then [UInt8.ofNat (v / 64 % 32 + 192), UInt8.ofNat (v % 64 + 128)]
      else if v ≤ 0xFFFF then
        [UInt8.ofNat (v / 4096 % 16 + 224), UInt8.ofNat (v / 64 % 64 + 128),
          UInt8.ofNat (v % 64 + 128)]
      else
        [UInt8.ofNat (v / 262144 % 8 + 240), UInt8.ofNat (v / 4096 % 64 + 128),
          UInt8.ofNat (v / 64 % 64 + 128), UInt8.ofNat (v % 64 + 128)] := by
  have hv : (Char.ofNat v).val.toNat = v := by
    rw [Char.ofNat, dif_pos h]
    rfl
  unfold String.utf8EncodeChar
  rw [hv]

theorem byte_of_toNat {a : UInt8} {n : Nat} (h : n = a.toNat) : UInt8.ofNat n = a := by
  rw [h]
  exact UInt8.ofNat_toNat

theorem isTail_bounds {b : UInt8} (h : isTail b = true) : 0x80 ≤ b.toNat ∧ b.toNat ≤ 0xBF := by
  simp only [isTail, Bool.and_eq_true, decide_eq_true_eq, UInt8.le_iff_toNat_le] at h
  exact h

theorem encodeChar_one {a : UInt8} (h : a < 0x80) :
    String.utf8EncodeChar (Char.ofNat a.toNat) = [a] := by
  have ha : a.toNat < 0x80 := UInt8.lt_iff_toNat_lt.mp h
  rw [encodeChar_ofNat (by left; omega), if_pos (by omega)]
  exact congrArg (fun b => [b]) UInt8.ofNat_toNat

theorem encodeChar_two {a b : UInt8} (ha : (decide (0xC2 ≤ a) && decide (a ≤ 0xDF)) = true)
    (hb : isTail b = true) :
    String.utf8EncodeChar (Char.ofNat (a.toNat % 32 * 64 + tailBits b)) = [a, b] := by
  simp only [Bool.and_eq_true, decide_eq_true_eq, UInt8.le_iff_toNat_le] at ha
  change 0xC2 ≤ a.toNat ∧ a.toNat ≤ 0xDF at ha
  have htail := isTail_bounds hb
  unfold tailBits
  rw [encodeChar_ofNat (by left; omega), if_neg (by omega), if_pos (by omega)]
  rw [byte_of_toNat (a := a) (by omega), byte_of_toNat (a := b) (by omega)]

theorem isSecondOfThree_bounds {a b : UInt8} (h : isSecondOfThree a b = true) :
    (0x80 ≤ b.toNat ∧ b.toNat ≤ 0xBF) ∧ (a.toNat = 0xE0 → 0xA0 ≤ b.toNat) ∧
      (a.toNat = 0xED → b.toNat ≤ 0x9F) := by
  unfold isSecondOfThree at h
  split at h
  · next ha =>
    have hE0 : a.toNat = 0xE0 := congrArg UInt8.toNat (eq_of_beq ha)
    simp only [Bool.and_eq_true, decide_eq_true_eq, UInt8.le_iff_toNat_le] at h
    change 0xA0 ≤ b.toNat ∧ b.toNat ≤ 0xBF at h
    omega
  · next ha =>
    have hE0 : a.toNat ≠ 0xE0 := fun heq => ha (beq_of_eq (UInt8.toNat_inj.mp heq))
    split at h
    · next hd =>
      have hED : a.toNat = 0xED := congrArg UInt8.toNat (eq_of_beq hd)
      simp only [Bool.and_eq_true, decide_eq_true_eq, UInt8.le_iff_toNat_le] at h
      change 0x80 ≤ b.toNat ∧ b.toNat ≤ 0x9F at h
      omega
    · next hd =>
      have hED : a.toNat ≠ 0xED := fun heq => hd (beq_of_eq (UInt8.toNat_inj.mp heq))
      have htail := isTail_bounds h
      omega

theorem isSecondOfFour_bounds {a b : UInt8} (h : isSecondOfFour a b = true) :
    (0x80 ≤ b.toNat ∧ b.toNat ≤ 0xBF) ∧ (a.toNat = 0xF0 → 0x90 ≤ b.toNat) ∧
      (a.toNat = 0xF4 → b.toNat ≤ 0x8F) := by
  unfold isSecondOfFour at h
  split at h
  · next ha =>
    have hF0 : a.toNat = 0xF0 := congrArg UInt8.toNat (eq_of_beq ha)
    simp only [Bool.and_eq_true, decide_eq_true_eq, UInt8.le_iff_toNat_le] at h
    change 0x90 ≤ b.toNat ∧ b.toNat ≤ 0xBF at h
    omega
  · next ha =>
    have hF0 : a.toNat ≠ 0xF0 := fun heq => ha (beq_of_eq (UInt8.toNat_inj.mp heq))
    split at h
    · next hd =>
      have hF4 : a.toNat = 0xF4 := congrArg UInt8.toNat (eq_of_beq hd)
      simp only [Bool.and_eq_true, decide_eq_true_eq, UInt8.le_iff_toNat_le] at h
      change 0x80 ≤ b.toNat ∧ b.toNat ≤ 0x8F at h
      omega
    · next hd =>
      have hF4 : a.toNat ≠ 0xF4 := fun heq => hd (beq_of_eq (UInt8.toNat_inj.mp heq))
      have htail := isTail_bounds h
      omega

theorem encodeChar_three {a b c : UInt8} (ha : (decide (0xE0 ≤ a) && decide (a ≤ 0xEF)) = true)
    (hb : isSecondOfThree a b = true) (hc : isTail c = true) :
    String.utf8EncodeChar (Char.ofNat ((a.toNat % 16 * 64 + tailBits b) * 64 + tailBits c)) =
      [a, b, c] := by
  simp only [Bool.and_eq_true, decide_eq_true_eq, UInt8.le_iff_toNat_le] at ha
  change 0xE0 ≤ a.toNat ∧ a.toNat ≤ 0xEF at ha
  have hsecond := isSecondOfThree_bounds hb
  have htail := isTail_bounds hc
  unfold tailBits
  rw [encodeChar_ofNat (by unfold Nat.isValidChar; omega), if_neg (by omega), if_neg (by omega),
    if_pos (by omega)]
  rw [byte_of_toNat (a := a) (by omega), byte_of_toNat (a := b) (by omega),
    byte_of_toNat (a := c) (by omega)]

theorem encodeChar_four {a b c d : UInt8} (ha : (decide (0xF0 ≤ a) && decide (a ≤ 0xF4)) = true)
    (hb : isSecondOfFour a b = true) (hc : isTail c = true) (hd : isTail d = true) :
    String.utf8EncodeChar (Char.ofNat
        (((a.toNat % 8 * 64 + tailBits b) * 64 + tailBits c) * 64 + tailBits d)) = [a, b, c, d] := by
  simp only [Bool.and_eq_true, decide_eq_true_eq, UInt8.le_iff_toNat_le] at ha
  change 0xF0 ≤ a.toNat ∧ a.toNat ≤ 0xF4 at ha
  have hsecond := isSecondOfFour_bounds hb
  have hthird := isTail_bounds hc
  have htail := isTail_bounds hd
  unfold tailBits
  rw [encodeChar_ofNat (by unfold Nat.isValidChar; omega), if_neg (by omega), if_neg (by omega),
    if_neg (by omega)]
  rw [byte_of_toNat (a := a) (by omega), byte_of_toNat (a := b) (by omega),
    byte_of_toNat (a := c) (by omega), byte_of_toNat (a := d) (by omega)]

theorem map_cons_ok {c : Char} {r : Except Fault (List Char)} {cs : List Char}
    (h : r.map (c :: ·) = .ok cs) : ∃ rest, r = .ok rest ∧ cs = c :: rest := by
  cases r with
  | error e => cases h
  | ok rest =>
    cases h
    exact ⟨rest, rfl, rfl⟩

theorem encodeChars_of_decodeFrom {bytes : Bytes} {cs : List Char} (h : decodeFrom i bytes = .ok cs) :
    encodeChars cs = bytes := by
  have step {c : Char} {head tail : Bytes} {r : Except Fault (List Char)} {cs : List Char}
      (hc : String.utf8EncodeChar c = head) (ih : ∀ {cs}, r = .ok cs → encodeChars cs = tail)
      (h : r.map (c :: ·) = .ok cs) : encodeChars cs = head ++ tail := by
    obtain ⟨rest, hr, rfl⟩ := map_cons_ok h
    rw [encodeChars, List.flatMap_cons, hc]
    exact congrArg (head ++ ·) (ih hr)
  fun_induction decodeFrom i bytes generalizing cs with
  | case1 => cases h; rfl
  | case2 i a r ha ih => exact step (encodeChar_one ha) ih h
  | case4 i a _ ha b r hb ih => exact step (encodeChar_two ha hb) ih h
  | case8 i a _ _ ha b hb c r hc ih => exact step (encodeChar_three ha hb hc) ih h
  | case14 i a _ _ _ ha b hb c hc d r hd ih => exact step (encodeChar_four ha hb hc hd) ih h
  | _ => cases h

theorem encode_of_decode {bytes : Bytes} {s : String} (h : decode? bytes = some s) :
    encode s = bytes := by
  unfold decode? decode at h
  cases hd : decodeFrom 0 bytes with
  | error e =>
    rw [hd] at h
    cases h
  | ok cs =>
    rw [hd] at h
    cases h
    rw [encode, String.toList_ofList]
    exact encodeChars_of_decodeFrom hd

theorem encode_injective {s t : String} (h : encode s = encode t) : s = t := by
  have hs := decode?_encode s
  rw [h, decode?_encode t] at hs
  exact (Option.some.inj hs).symm

/-- A byte below `0x80` ends no longer character. -/
theorem eq_nil_of_encodeChar {c : Char} {front : Bytes} {a : UInt8} (ha : a < 0x80)
    (h : String.utf8EncodeChar c = front ++ [a]) : front = [] := by
  have htail (n : Nat) : UInt8.ofNat (n % 64 + 128) ≠ a := by
    rintro rfl
    exact not_lt_byte (by omega) (by omega) ha
  have hlast : (String.utf8EncodeChar c).getLast? = some a := by rw [h, List.getLast?_concat]
  unfold String.utf8EncodeChar at h hlast
  simp only at h hlast
  split at hlast
  · next hone =>
    rw [if_pos hone] at h
    have hlength := congrArg List.length h
    simp only [List.length_append, List.length_singleton] at hlength
    exact List.length_eq_zero_iff.mp (by omega)
  · split at hlast
    · exact absurd (Option.some.inj hlast) (htail _)
    · split at hlast
      · exact absurd (Option.some.inj hlast) (htail _)
      · exact absurd (Option.some.inj hlast) (htail _)

/-- A text stays one without the ASCII bytes at its end. -/
theorem exists_encodeChars {cs : List Char} {front : Bytes} {a : UInt8} (ha : a < 0x80) {n : Nat}
    (h : encodeChars cs = front ++ List.replicate n a) : ∃ shorter, encodeChars shorter = front := by
  induction n generalizing cs with
  | zero => exact ⟨cs, by simpa using h⟩
  | succ n ih =>
    rw [List.replicate_succ', ← List.append_assoc] at h
    rcases List.eq_nil_or_concat cs with rfl | ⟨shorter, c, rfl⟩
    · simp [encodeChars] at h
    · have hne : String.utf8EncodeChar c ≠ [] := String.utf8EncodeChar_ne_nil
      rw [List.concat_eq_append, encodeChars, List.flatMap_append, List.flatMap_singleton,
        ← List.dropLast_concat_getLast hne, ← List.append_assoc] at h
      obtain ⟨hfront, hlast⟩ := List.append_inj' h rfl
      have hchar : String.utf8EncodeChar c = (String.utf8EncodeChar c).dropLast ++ [a] := by
        rw [← hlast, List.dropLast_concat_getLast hne]
      rw [eq_nil_of_encodeChar ha hchar, List.append_nil] at hfront
      exact ih hfront

end Utf8

end ChainFollower
