import ChainFollower.Json.Parser
import ChainFollower.Json.Printer
import ChainFollower.Proofs.Text.Names

namespace ChainFollower

theorem Utf8.encodeChars_append (cs ds : List Char) :
    encodeChars (cs ++ ds) = encodeChars cs ++ encodeChars ds := List.flatMap_append

theorem Utf8.encodeChars_cons (c : Char) (cs : List Char) :
    encodeChars (c :: cs) = String.utf8EncodeChar c ++ encodeChars cs := List.flatMap_cons

theorem Utf8.length_le_encodeChars (cs : List Char) : cs.length ≤ (encodeChars cs).length := by
  induction cs with
  | nil => exact Nat.le_refl 0
  | cons c cs ih =>
    have hc := String.utf8EncodeChar_ne_nil (c := c)
    have hpos := List.length_pos_iff.mpr hc
    rw [encodeChars_cons, List.length_append, List.length_cons]
    omega

namespace Json

/-- A byte inside a string that stands for itself. -/
def IsPlain (b : UInt8) : Prop := b ≠ 0x22 ∧ ¬b < 0x20 ∧ b ≠ 0x5C

theorem stringBody_plain {bytes : Bytes} (h : ∀ b ∈ bytes, IsPlain b) (r : Bytes) :
    stringBody (bytes ++ r) = (stringBody r).map fun p => (bytes ++ p.1, p.2) := by
  induction bytes with
  | nil => simp
  | cons b bytes ih =>
    obtain ⟨hquote, hcontrol, hescape⟩ := h b List.mem_cons_self
    rw [List.cons_append, stringBody.eq_def]
    simp only [if_neg hquote, if_neg hcontrol, if_neg hescape]
    rw [ih fun b hb => h b (List.mem_cons_of_mem _ hb), Option.map_map]
    rfl

theorem isPlain_of_le {n : Nat} (hn : n < 256) (h : 0x80 ≤ n) : IsPlain (UInt8.ofNat n) := by
  refine ⟨?_, ?_, ?_⟩
  · rw [ne_eq, show (0x22 : UInt8) = UInt8.ofNat 0x22 from rfl, Utf8.byte_eq hn (by omega)]
    omega
  · rw [show (0x20 : UInt8) = UInt8.ofNat 0x20 from rfl, Utf8.byte_lt hn (by omega)]
    omega
  · rw [ne_eq, show (0x5C : UInt8) = UInt8.ofNat 0x5C from rfl, Utf8.byte_eq hn (by omega)]
    omega

/-- The bytes of a character that needs no escape. -/
theorem isPlain_of_mem {c : Char} (hquote : c ≠ '\x22') (hescape : c ≠ '\\') (hcontrol : ¬c.toNat < 0x20) :
    ∀ b ∈ String.utf8EncodeChar c, IsPlain b := by
  have hvalid := c.valid
  unfold UInt32.isValidChar Nat.isValidChar at hvalid
  have hq : c.val.toNat ≠ 0x22 := fun h => hquote (Char.ext (UInt32.toNat_inj.mp h))
  have he : c.val.toNat ≠ 0x5C := fun h => hescape (Char.ext (UInt32.toNat_inj.mp h))
  have hc : ¬c.val.toNat < 0x20 := hcontrol
  unfold String.utf8EncodeChar
  generalize c.val.toNat = v at hvalid hq he hc
  intro b hb
  simp only at hb
  split at hb
  · rw [List.mem_singleton.mp hb]
    refine ⟨?_, ?_, ?_⟩
    · rw [ne_eq, show (0x22 : UInt8) = UInt8.ofNat 0x22 from rfl, Utf8.byte_eq (by omega) (by omega)]
      exact hq
    · rw [show (0x20 : UInt8) = UInt8.ofNat 0x20 from rfl, Utf8.byte_lt (by omega) (by omega)]
      exact hc
    · rw [ne_eq, show (0x5C : UInt8) = UInt8.ofNat 0x5C from rfl, Utf8.byte_eq (by omega) (by omega)]
      exact he
  · split at hb
    · simp only [List.mem_cons, List.not_mem_nil, or_false] at hb
      rcases hb with rfl | rfl
      · exact isPlain_of_le (by omega) (by omega)
      · exact isPlain_of_le (by omega) (by omega)
    · split at hb
      · simp only [List.mem_cons, List.not_mem_nil, or_false] at hb
        rcases hb with rfl | rfl | rfl
        · exact isPlain_of_le (by omega) (by omega)
        · exact isPlain_of_le (by omega) (by omega)
        · exact isPlain_of_le (by omega) (by omega)
      · simp only [List.mem_cons, List.not_mem_nil, or_false] at hb
        rcases hb with rfl | rfl | rfl | rfl
        · exact isPlain_of_le (by omega) (by omega)
        · exact isPlain_of_le (by omega) (by omega)
        · exact isPlain_of_le (by omega) (by omega)
        · exact isPlain_of_le (by omega) (by omega)

/-- A control character is read back from the digits of its escape. -/
theorem stringBody_control {n : Nat} (h : n < 0x20) (r : Bytes) :
    stringBody (Utf8.encodeChars ['\\', 'u', '0', '0', Hex.digit (n / 16), Hex.digit (n % 16)] ++ r) =
      (stringBody r).map fun p => (String.utf8EncodeChar (Char.ofNat n) ++ p.1, p.2) := by
  have hcodes : Utf8.encodeChars ['\\', 'u', '0', '0', Hex.digit (n / 16), Hex.digit (n % 16)] =
      [0x5C, 0x75, 0x30, 0x30, UInt8.ofNat (Hex.digit (n / 16)).val.toNat,
        UInt8.ofNat (Hex.digit (n % 16)).val.toNat] := by
    simp only [Utf8.encodeChars_cons, Hex.encodeChar_digit (show n / 16 < 16 by omega),
      Hex.encodeChar_digit (show n % 16 < 16 by omega)]
    rfl
  have hfour : hexFour? 0x30 0x30 (UInt8.ofNat (Hex.digit (n / 16)).val.toNat)
      (UInt8.ofNat (Hex.digit (n % 16)).val.toNat) = some n := by
    have hzero : Hex.value? 0x30 = some 0 := rfl
    simp only [hexFour?, hzero, Hex.value?_digit (show n / 16 < 16 by omega),
      Hex.value?_digit (show n % 16 < 16 by omega), Option.bind_eq_bind, Option.bind_some]
    exact congrArg some (by omega)
  rw [hcodes]
  simp only [List.cons_append, List.nil_append]
  rw [stringBody.eq_def]
  simp only [hfour]
  have hlow : ¬(0xDC00 ≤ n ∧ n ≤ 0xDFFF) := by omega
  have hhigh : ¬(0xD800 ≤ n ∧ n ≤ 0xDBFF) := by omega
  rw [if_neg (by decide), if_neg (by decide), if_pos trivial, if_pos trivial, if_neg hlow, if_neg hhigh]

theorem stringBody_simple {e b : UInt8} (h : simpleEscape? e = some b) (hne : e ≠ 0x75) (r : Bytes) :
    stringBody (0x5C :: e :: r) = (stringBody r).map fun p => (b :: p.1, p.2) := by
  rw [stringBody.eq_def]
  simp only [h, if_neg hne]
  rw [if_neg (by decide), if_neg (by decide), if_pos trivial]

theorem stringBody_escapeChar (c : Char) (r : Bytes) :
    stringBody (Utf8.encodeChars (escapeChar c) ++ r) =
      (stringBody r).map fun p => (String.utf8EncodeChar c ++ p.1, p.2) := by
  unfold escapeChar
  split
  · next h =>
    subst h
    exact stringBody_simple (e := 0x22) (b := 0x22) rfl (by decide) r
  · next hquote =>
    split
    · next h =>
      subst h
      exact stringBody_simple (e := 0x5C) (b := 0x5C) rfl (by decide) r
    · next hescape =>
      split
      · next h =>
        subst h
        exact stringBody_simple (e := 0x62) (b := 0x08) rfl (by decide) r
      · split
        · next h =>
          subst h
          exact stringBody_simple (e := 0x74) (b := 0x09) rfl (by decide) r
        · split
          · next h =>
            subst h
            exact stringBody_simple (e := 0x6E) (b := 0x0A) rfl (by decide) r
          · split
            · next h =>
              subst h
              exact stringBody_simple (e := 0x66) (b := 0x0C) rfl (by decide) r
            · split
              · next h =>
                subst h
                exact stringBody_simple (e := 0x72) (b := 0x0D) rfl (by decide) r
              · split
                · next hcontrol =>
                  rw [stringBody_control hcontrol, Char.ofNat_toNat]
                · next hcontrol =>
                  rw [Utf8.encodeChars_cons, show Utf8.encodeChars [] = [] from rfl, List.append_nil]
                  exact stringBody_plain (isPlain_of_mem hquote hescape hcontrol) r

theorem stringBody_quoted (cs : List Char) (rest : Bytes) :
    stringBody (Utf8.encodeChars (cs.flatMap escapeChar) ++ 0x22 :: rest) =
      some (Utf8.encodeChars cs, rest) := by
  induction cs with
  | nil =>
    rw [stringBody.eq_def]
    rfl
  | cons c cs ih =>
    rw [List.flatMap_cons, Utf8.encodeChars_append, List.append_assoc, stringBody_escapeChar, ih,
      Option.map_some, Utf8.encodeChars_cons]

/-- A quoted string is read back behind its opening quote. -/
theorem string?_quoted (s : String) (rest : Bytes) :
    string? (Utf8.encodeChars (s.toList.flatMap escapeChar) ++ 0x22 :: rest) = some (s, rest) := by
  have hdecode : Utf8.decode? (Utf8.encodeChars s.toList) = some s := Utf8.decode?_encode s
  simp only [string?, stringBody_quoted, Option.bind_eq_bind, Option.bind_some, hdecode]
  rfl

theorem encodeChars_quoteChars (s : String) (rest : Bytes) :
    Utf8.encodeChars (quoteChars s) ++ rest =
      0x22 :: (Utf8.encodeChars (s.toList.flatMap escapeChar) ++ 0x22 :: rest) := by
  rw [quoteChars, List.cons_append, Utf8.encodeChars_cons, Utf8.encodeChars_append, List.append_assoc,
    List.append_assoc]
  rfl

/-- What may stand behind a document in a larger one. -/
def Stops : Bytes → Prop
  | [] => True
  | b :: _ => b = 0x2C ∨ b = 0x5D ∨ b = 0x7D

theorem head_toDigits {n : Nat} {c d : Char} {cs : List Char} (h : Nat.toDigits 10 n = c :: d :: cs) :
    c ≠ '0' := by
  induction n using Nat.strongRecOn generalizing d cs with
  | _ n ih =>
    by_cases hn : n < 10
    · rw [Nat.toDigits_of_lt_base hn] at h
      cases h
    · rw [Nat.toDigits_of_base_le (by omega) (by omega)] at h
      by_cases hlast : n / 10 < 10
      · rw [Nat.toDigits_of_lt_base hlast] at h
        have hall : ∀ k < 10, 0 < k → Nat.digitChar k ≠ '0' := by decide
        obtain ⟨rfl, _⟩ := List.cons.inj h
        exact hall _ hlast (by omega)
      · cases hds : Nat.toDigits 10 (n / 10) with
        | nil => exact absurd hds Nat.toDigits_ne_nil
        | cons c' ds =>
          rw [hds, List.cons_append] at h
          obtain ⟨rfl, _⟩ := List.cons.inj h
          cases ds with
          | cons d' ds' => exact ih _ (by omega) hds
          | nil =>
            rw [Nat.toDigits_of_base_le (by omega) (by omega)] at hds
            have hlength := congrArg List.length hds
            have hpos := List.length_pos_iff.mpr (Nat.toDigits_ne_nil (n := n / 10 / 10) (b := 10))
            simp only [List.length_append, List.length_cons, List.length_nil] at hlength
            omega

theorem encodeChars_digits {cs : List Char} (h : ∀ c ∈ cs, c.isDigit) :
    Utf8.encodeChars cs = cs.map fun c => UInt8.ofNat c.toNat := by
  induction cs with
  | nil => rfl
  | cons c cs ih =>
    have hc := Char.isDigit_iff_toNat.mp (h c List.mem_cons_self)
    have hbyte : String.utf8EncodeChar c = [UInt8.ofNat c.toNat] := by
      have hle : c.val.toNat ≤ 0x7F := Nat.le_trans hc.2 (by decide)
      simp only [String.utf8EncodeChar, if_pos hle]
      rfl
    rw [Utf8.encodeChars_cons, hbyte, ih fun d hd => h d (List.mem_cons_of_mem _ hd)]
    rfl

theorem isDigit_byte {c : Char} (h : c.isDigit) :
    isDigit (UInt8.ofNat c.toNat) = true ∧ digitValue (UInt8.ofNat c.toNat) = c.toNat - 48 := by
  obtain ⟨hlow, hhigh⟩ := Char.isDigit_iff_toNat.mp h
  have hlow' : 0x30 ≤ c.toNat := hlow
  have hhigh' : c.toNat ≤ 0x39 := hhigh
  refine ⟨Utf8.between_byte 0x30 0x39 hlow' hhigh' (by omega), ?_⟩
  rw [digitValue, Utf8.toNat_byte (by omega)]

theorem not_isDigit_of_stops {b : UInt8} {rest : Bytes} (h : Stops (b :: rest)) : isDigit b = false := by
  rcases h with rfl | rfl | rfl <;> rfl

theorem accumulate_digits {cs : List Char} {m : Nat} (h : Nat.ofDigitChars 10 cs m < UInt64.size) :
    accumulate m (cs.map fun c => c.toNat - 48) = (Nat.ofDigitChars 10 cs m, cs.length, 0) := by
  induction cs generalizing m with
  | nil => rfl
  | cons c cs ih =>
    rw [Nat.ofDigitChars_cons] at h
    have hle : ∀ (ds : List Char) (k : Nat), k ≤ Nat.ofDigitChars 10 ds k := by
      intro ds
      induction ds with
      | nil => exact fun k => Nat.le_of_eq Nat.ofDigitChars_nil.symm
      | cons d ds ih =>
        intro k
        rw [Nat.ofDigitChars_cons]
        have hnext := ih (10 * k + (d.toNat - '0'.toNat))
        omega
    have hlt : 10 * m + (c.toNat - 48) < UInt64.size := Nat.lt_of_le_of_lt (hle cs _) h
    have hnext : accumulate (10 * m + (c.toNat - 48)) (cs.map fun c => c.toNat - 48) =
        (Nat.ofDigitChars 10 cs (10 * m + (c.toNat - 48)), cs.length, 0) := ih h
    rw [List.map_cons, accumulate, if_pos hlt, hnext, Nat.ofDigitChars_cons]
    rfl

/-- The digits of a number are read up to where they end. -/
theorem takeDigits_append {cs : List Char} (h : ∀ c ∈ cs, c.isDigit) {rest : Bytes}
    (hrest : Stops rest) :
    takeDigits (cs.map (fun c => UInt8.ofNat c.toNat) ++ rest) = (cs.map fun c => c.toNat - 48) ∧
      dropDigits (cs.map (fun c => UInt8.ofNat c.toNat) ++ rest) = rest := by
  have hbytes : ∀ b ∈ cs.map fun c => UInt8.ofNat c.toNat, isDigit b = true := by
    intro b hb
    obtain ⟨c, hc, rfl⟩ := List.mem_map.mp hb
    exact (isDigit_byte (h c hc)).1
  have hvalues : (cs.map fun c => UInt8.ofNat c.toNat).map digitValue = cs.map fun c => c.toNat - 48 := by
    rw [List.map_map]
    exact List.map_congr_left fun c hc => (isDigit_byte (h c hc)).2
  have hstop : rest.takeWhile isDigit = [] ∧ rest.dropWhile isDigit = rest := by
    cases rest with
    | nil => exact ⟨rfl, rfl⟩
    | cons b rest =>
      have hb := not_isDigit_of_stops hrest
      exact ⟨by rw [List.takeWhile_cons, hb]; rfl, by rw [List.dropWhile_cons, hb]; rfl⟩
  refine ⟨?_, ?_⟩
  · rw [takeDigits, List.takeWhile_append_of_pos hbytes, hstop.1, List.append_nil, hvalues]
  · rw [dropDigits, List.dropWhile_append_of_pos hbytes, hstop.2]

/-- What may stand behind a number is no part of it. -/
theorem exponent?_of_stops {rest : Bytes} (h : Stops rest) : exponent? rest = some (none, rest) := by
  cases rest with
  | nil => rfl
  | cons b rest => rcases h with rfl | rfl | rfl <;> rfl

/-- Digits are a whole number, but for a needless zero in front. -/
theorem literal?_digits {cs : List Char} (h : ∀ c ∈ cs, c.isDigit) (hne : cs ≠ [])
    (hhead : ∀ c d ds, cs = c :: d :: ds → c ≠ '0') {rest : Bytes} (hrest : Stops rest) :
    literal? false (cs.map (fun c => UInt8.ofNat c.toNat) ++ rest) =
      some (⟨false, cs.map fun c => c.toNat - 48, [], 0, true⟩, rest) := by
  obtain ⟨htake, hdrop⟩ := takeDigits_append h hrest
  have hpoint : ∀ b r, rest = b :: r → b ≠ 0x2E := by
    rintro b r rfl
    rcases hrest with rfl | rfl | rfl <;> decide
  unfold literal?
  rw [htake, hdrop]
  simp only
  split
  · next hnil => exact absurd (List.map_eq_nil_iff.mp hnil) hne
  · next d ds hzero =>
    obtain ⟨c, cs', rfl, hc, hcs'⟩ := List.map_eq_cons_iff.mp hzero
    obtain ⟨c', cs'', rfl, _, _⟩ := List.map_eq_cons_iff.mp hcs'
    have hlow : 48 ≤ c.toNat := (Char.isDigit_iff_toNat.mp (h c List.mem_cons_self)).1
    have hcode : c.val.toNat = 48 := show c.toNat = 48 by omega
    exact absurd (Char.ext (UInt32.toNat_inj.mp hcode)) (hhead c c' cs'' rfl)
  · split
    · next b r =>
      rw [if_neg (hpoint b r rfl), exponent?_of_stops hrest]
      rfl
    · rfl

theorem exists_first_digit (n : Nat) :
    ∃ b r, Utf8.encodeChars (Nat.toDigits 10 n) = b :: r ∧ isDigit b = true := by
  rw [encodeChars_digits fun c hc => Decimal.isDigit_of_mem hc]
  cases hcs : Nat.toDigits 10 n with
  | nil => exact absurd hcs Nat.toDigits_ne_nil
  | cons c cs =>
    exact ⟨_, _, rfl, (isDigit_byte (Decimal.isDigit_of_mem (hcs ▸ List.mem_cons_self))).1⟩

theorem number?_toDigits {n : Nat} (h : n < UInt64.size) {rest : Bytes} (hrest : Stops rest) :
    number? (Utf8.encodeChars (Nat.toDigits 10 n) ++ rest) = some (.int n, rest) := by
  have hdigits : ∀ c ∈ Nat.toDigits 10 n, c.isDigit := fun c hc => Decimal.isDigit_of_mem hc
  have hvalue : Nat.ofDigitChars 10 (Nat.toDigits 10 n) 0 = n := Nat.ofDigitChars_ten_toDigits
  have hsum : accumulate 0 ((Nat.toDigits 10 n).map fun c => c.toNat - 48) =
      (n, (Nat.toDigits 10 n).length, 0) := by
    have hall : accumulate 0 ((Nat.toDigits 10 n).map fun c => c.toNat - 48) =
        (Nat.ofDigitChars 10 (Nat.toDigits 10 n) 0, (Nat.toDigits 10 n).length, 0) :=
      accumulate_digits (by rw [hvalue]; exact h)
    rwa [hvalue] at hall
  have hread : Literal.value? ⟨false, (Nat.toDigits 10 n).map fun c => c.toNat - 48, [], 0, true⟩ =
      some (.int n) := by
    unfold Literal.value?
    simp only [hsum]
    rfl
  have hliteral := literal?_digits hdigits Nat.toDigits_ne_nil (fun c d ds => head_toDigits) hrest
  rw [← encodeChars_digits hdigits] at hliteral
  obtain ⟨b, r, hfirst, hdigit⟩ := exists_first_digit n
  have hminus : b ≠ 0x2D := by
    rintro rfl
    cases hdigit
  rw [hfirst, List.cons_append] at hliteral ⊢
  unfold number?
  simp only [if_neg hminus]
  rw [hliteral]
  simp only [Option.bind_eq_bind, Option.bind_some, hread]
  rfl

mutual

/-- Whole numbers below `2 ^ 64`, keys in ascending order, and at most `depth` arrays and objects inside
each other. -/
def Tidy : Nat → Json → Prop
  | _, .null => True
  | _, .bool _ => True
  | _, .num (.int n) => 0 ≤ n ∧ n < UInt64.size
  | _, .num (.float _) => False
  | _, .str _ => True
  | 0, .arr _ => False
  | depth + 1, .arr items => TidyItems depth items
  | 0, .obj _ => False
  | depth + 1, .obj fields => (fields.map Prod.fst).Pairwise (· < ·) ∧ TidyFields depth fields

def TidyItems : Nat → List Json → Prop
  | _, [] => True
  | depth, x :: xs => Tidy depth x ∧ TidyItems depth xs

def TidyFields : Nat → List (String × Json) → Prop
  | _, [] => True
  | depth, (_, v) :: fields => Tidy depth v ∧ TidyFields depth fields

end

theorem insertField_of_lt {key : String} {value : Json} {fields : List (String × Json)}
    (h : ∀ k ∈ fields.map Prod.fst, k < key) : insertField key value fields = fields ++ [(key, value)] := by
  induction fields with
  | nil => rfl
  | cons field fields ih =>
    obtain ⟨k, v⟩ := field
    have hk : k < key := h k List.mem_cons_self
    have hgt : ¬key < k := fun hlt => String.lt_irrefl k (String.lt_trans hk hlt)
    have hne : key ≠ k := by
      rintro rfl
      exact String.lt_irrefl key hk
    rw [insertField, if_neg hgt, if_neg hne, ih fun k hk => h k (List.mem_cons_of_mem _ hk)]
    rfl

/-- Fields in order go behind the ones that are there. -/
theorem foldl_insertField {fields : List (String × Json)} (acc : List (String × Json))
    (h : ((acc ++ fields).map Prod.fst).Pairwise (· < ·)) :
    fields.foldl (fun acc (k, v) => insertField k v acc) acc = acc ++ fields := by
  induction fields generalizing acc with
  | nil => simp
  | cons field fields ih =>
    obtain ⟨k, v⟩ := field
    have hlt : ∀ k' ∈ acc.map Prod.fst, k' < k := by
      intro k' hk'
      rw [List.map_append] at h
      exact (List.pairwise_append.mp h).2.2 k' hk' k List.mem_cons_self
    have hnext := ih (acc ++ [(k, v)]) (by rwa [List.append_assoc])
    rw [List.append_assoc] at hnext
    rw [List.foldl_cons]
    simp only [insertField_of_lt hlt]
    exact hnext

/-- Fields in order stay as they are. -/
theorem ofFields_of_pairwise {fields : List (String × Json)} (h : (fields.map Prod.fst).Pairwise (· < ·)) :
    ofFields fields = .obj fields := congrArg Json.obj (foldl_insertField [] h)

theorem skipSpace_cons {b : UInt8} (h : isSpace b = false) (r : Bytes) : skipSpace (b :: r) = b :: r := by
  rw [skipSpace, List.dropWhile_cons, h]
  rfl

theorem isSpace_of_isDigit {b : UInt8} (h : isDigit b = true) : isSpace b = false := by
  have hlow : (0x30 : UInt8) ≤ b := by
    rw [isDigit, Bool.and_eq_true, decide_eq_true_eq] at h
    exact h.1
  have hne : ∀ c : UInt8, ¬(0x30 : UInt8) ≤ c → (b == c) = false := by
    intro c hc
    rw [beq_eq_false_iff_ne]
    rintro rfl
    exact hc hlow
  rw [isSpace, hne _ (by decide), hne _ (by decide), hne _ (by decide), hne _ (by decide)]
  rfl

theorem chars_ofNat (n : Nat) : (num (.int n)).chars = Nat.toDigits 10 n := by
  rw [chars, Number.chars]
  exact Nat.toList_repr

/-- A document begins with no blank and closes nothing. -/
theorem exists_head {depth : Nat} {j : Json} (h : Tidy depth j) :
    ∃ b r, Utf8.encodeChars j.chars = b :: r ∧ isSpace b = false ∧ b ≠ 0x5D ∧ b ≠ 0x7D := by
  cases j with
  | null => exact ⟨_, _, rfl, rfl, by decide, by decide⟩
  | bool b => cases b <;> exact ⟨_, _, rfl, rfl, by decide, by decide⟩
  | num n =>
    cases n with
    | float x => exact absurd h (by simp [Tidy])
    | int n =>
      obtain ⟨m, rfl⟩ := Int.eq_ofNat_of_zero_le (show 0 ≤ n ∧ n < UInt64.size by simpa [Tidy] using h).1
      obtain ⟨b, r, hfirst, hdigit⟩ := exists_first_digit m
      rw [chars_ofNat]
      refine ⟨b, r, hfirst, isSpace_of_isDigit hdigit, ?_, ?_⟩
      · exact fun hb => absurd (hb ▸ hdigit) (by decide)
      · exact fun hb => absurd (hb ▸ hdigit) (by decide)
  | str s => exact ⟨_, _, rfl, rfl, by decide, by decide⟩
  | arr items => cases items <;> exact ⟨_, _, rfl, rfl, by decide, by decide⟩
  | obj fields =>
    cases fields with
    | nil => exact ⟨_, _, rfl, rfl, by decide, by decide⟩
    | cons field fields => exact ⟨_, _, rfl, rfl, by decide, by decide⟩

/-- With so much fuel, documents are read back from the front of what follows them. -/
structure Reads (fuel : Nat) : Prop where
  value : ∀ depth j rest, Tidy depth j → Stops rest → 2 * j.chars.length ≤ fuel →
    value? fuel depth (Utf8.encodeChars j.chars ++ rest) = some (j, rest)
  items : ∀ depth x xs rest, TidyItems depth (x :: xs) →
    2 * (x.chars ++ itemsChars xs).length ≤ fuel →
    items? fuel depth (Utf8.encodeChars (x.chars ++ itemsChars xs) ++ rest) = some (x :: xs, rest)
  members : ∀ depth k v fields rest, TidyFields depth ((k, v) :: fields) →
    2 * (quoteChars k ++ ':' :: v.chars ++ fieldsChars fields).length ≤ fuel →
    members? fuel depth (Utf8.encodeChars (quoteChars k ++ ':' :: v.chars ++ fieldsChars fields) ++ rest) =
      some ((k, v) :: fields, rest)

theorem value?_of_isDigit {fuel depth : Nat} {b : UInt8} (h : isDigit b = true) (r : Bytes) :
    value? (fuel + 1) depth (b :: r) = (number? (b :: r)).map fun (n, rest) => (.num n, rest) := by
  have hne : ∀ c : UInt8, isDigit c = false → b ≠ c := by
    rintro c hc rfl
    rw [h] at hc
    cases hc
  rw [value?, skipSpace_cons (isSpace_of_isDigit h)]
  simp only
  rw [if_neg (hne _ rfl), if_neg (hne _ rfl), if_neg (hne _ rfl), if_neg (hne _ rfl), if_neg (hne _ rfl),
    if_neg (hne _ rfl)]

theorem value?_quote {fuel depth : Nat} (r : Bytes) : value? (fuel + 1) depth (0x22 :: r) =
    (string? r).map fun (s, rest) => (.str s, rest) := rfl

theorem value?_bracket {fuel depth : Nat} {b : UInt8} (hspace : isSpace b = false) (hclose : b ≠ 0x5D)
    (r : Bytes) : value? (fuel + 1) (depth + 1) (0x5B :: b :: r) =
      (items? fuel depth (b :: r)).map fun (xs, rest) => (.arr xs, rest) := by
  rw [value?, skipSpace_cons rfl]
  simp only [skipSpace_cons hspace, if_neg hclose]
  rfl

theorem value?_brace {fuel depth : Nat} (r : Bytes) : value? (fuel + 1) (depth + 1) (0x7B :: 0x22 :: r) =
    (members? fuel depth (0x22 :: r)).map fun (fields, rest) => (ofFields fields, rest) := rfl

theorem value?_ofNat {fuel depth n : Nat} (h : n < UInt64.size) {rest : Bytes} (hrest : Stops rest) :
    value? (fuel + 1) depth (Utf8.encodeChars (num (.int n)).chars ++ rest) =
      some (.num (.int n), rest) := by
  obtain ⟨b, r, hfirst, hdigit⟩ := exists_first_digit n
  have hread := number?_toDigits h hrest
  rw [chars_ofNat]
  rw [hfirst, List.cons_append] at hread ⊢
  rw [value?_of_isDigit hdigit, hread]
  rfl

theorem value?_arr {fuel depth : Nat} {x : Json} {xs : List Json} {rest : Bytes} (ih : Reads fuel)
    (h : TidyItems depth (x :: xs)) (hfuel : 2 * (arr (x :: xs)).chars.length ≤ fuel + 1) :
    value? (fuel + 1) (depth + 1) (Utf8.encodeChars (arr (x :: xs)).chars ++ rest) =
      some (arr (x :: xs), rest) := by
  obtain ⟨b, r, hhead, hspace, hclose, _⟩ := exists_head h.1
  have hread := ih.items depth x xs rest h (by
    simp only [chars, List.cons_append, List.length_cons, List.length_append] at hfuel ⊢
    omega)
  have htext : Utf8.encodeChars (arr (x :: xs)).chars ++ rest =
      0x5B :: (Utf8.encodeChars (x.chars ++ itemsChars xs) ++ rest) := by
    rw [chars, List.cons_append, Utf8.encodeChars_cons]
    rfl
  rw [htext]
  rw [Utf8.encodeChars_append, hhead, List.cons_append, List.cons_append] at hread ⊢
  rw [value?_bracket hspace hclose, hread]
  rfl

theorem value?_obj {fuel depth : Nat} {k : String} {v : Json} {fields : List (String × Json)}
    {rest : Bytes} (ih : Reads fuel) (hkeys : (((k, v) :: fields).map Prod.fst).Pairwise (· < ·))
    (h : TidyFields depth ((k, v) :: fields))
    (hfuel : 2 * (obj ((k, v) :: fields)).chars.length ≤ fuel + 1) :
    value? (fuel + 1) (depth + 1) (Utf8.encodeChars (obj ((k, v) :: fields)).chars ++ rest) =
      some (obj ((k, v) :: fields), rest) := by
  have hread := ih.members depth k v fields rest h (by
    simp only [chars, List.cons_append, List.length_cons, List.length_append] at hfuel ⊢
    omega)
  have htext : Utf8.encodeChars (obj ((k, v) :: fields)).chars ++ rest =
      0x7B :: (Utf8.encodeChars (quoteChars k ++ ':' :: v.chars ++ fieldsChars fields) ++ rest) := by
    rw [chars, List.cons_append, List.cons_append, Utf8.encodeChars_cons]
    rfl
  rw [htext]
  rw [List.append_assoc, Utf8.encodeChars_append, List.append_assoc, encodeChars_quoteChars] at hread ⊢
  rw [value?_brace, hread, Option.map_some]
  exact congrArg (fun j => some (j, rest)) (ofFields_of_pairwise hkeys)

theorem value?_succ {fuel depth : Nat} {j : Json} {rest : Bytes} (ih : Reads fuel) (h : Tidy depth j)
    (hrest : Stops rest) (hfuel : 2 * j.chars.length ≤ fuel + 1) :
    value? (fuel + 1) depth (Utf8.encodeChars j.chars ++ rest) = some (j, rest) := by
  cases j with
  | null => rfl
  | bool b => cases b <;> rfl
  | num n =>
    cases n with
    | float x => exact absurd h (by simp [Tidy])
    | int n =>
      obtain ⟨hzero, hsize⟩ : 0 ≤ n ∧ n < UInt64.size := by simpa [Tidy] using h
      obtain ⟨m, rfl⟩ := Int.eq_ofNat_of_zero_le hzero
      exact value?_ofNat (by omega) hrest
  | str s =>
    rw [chars, encodeChars_quoteChars, value?_quote, string?_quoted]
    rfl
  | arr items =>
    cases depth with
    | zero => exact absurd h (by simp [Tidy])
    | succ depth =>
      cases items with
      | nil => rfl
      | cons x xs => exact value?_arr ih (by simpa [Tidy] using h) hfuel
  | obj fields =>
    cases depth with
    | zero => exact absurd h (by simp [Tidy])
    | succ depth =>
      cases fields with
      | nil => rfl
      | cons field fields =>
        obtain ⟨hkeys, hfields⟩ : (((field :: fields).map Prod.fst).Pairwise (· < ·)) ∧
            TidyFields depth (field :: fields) := by simpa [Tidy] using h
        exact value?_obj ih hkeys hfields hfuel

theorem items?_succ {fuel depth : Nat} {x : Json} {xs : List Json} {rest : Bytes} (ih : Reads fuel)
    (h : TidyItems depth (x :: xs)) (hfuel : 2 * (x.chars ++ itemsChars xs).length ≤ fuel + 1) :
    items? (fuel + 1) depth (Utf8.encodeChars (x.chars ++ itemsChars xs) ++ rest) = some (x :: xs, rest) := by
  rw [List.length_append] at hfuel
  cases xs with
  | nil =>
    have hread := ih.value depth x (0x5D :: rest) h.1 (.inr (.inl rfl)) (by
      simp only [itemsChars, List.length_cons, List.length_nil] at hfuel
      omega)
    rw [itemsChars, Utf8.encodeChars_append, List.append_assoc, items?]
    rw [show Utf8.encodeChars [']'] ++ rest = 0x5D :: rest from rfl, hread]
    rfl
  | cons y ys =>
    have htext : Utf8.encodeChars (itemsChars (y :: ys)) ++ rest =
        0x2C :: (Utf8.encodeChars (y.chars ++ itemsChars ys) ++ rest) := by
      rw [itemsChars, List.cons_append, Utf8.encodeChars_cons]
      rfl
    simp only [itemsChars, List.cons_append, List.length_cons, List.length_append] at hfuel
    have hread := ih.value depth x (0x2C :: (Utf8.encodeChars (y.chars ++ itemsChars ys) ++ rest)) h.1
      (.inl rfl) (by omega)
    have hmore := ih.items depth y ys rest h.2 (by
      rw [List.length_append]
      omega)
    rw [Utf8.encodeChars_append, List.append_assoc, htext, items?, hread]
    simp only [skipSpace_cons (show isSpace 0x2C = false from rfl), if_true, hmore]
    rfl

/-- A key, its colon and its value in front of what closes the object or goes on with it. -/
theorem members?_key {fuel depth : Nat} {k : String} {v : Json} {rest : Bytes} (ih : Reads fuel)
    (h : Tidy depth v) (hrest : Stops rest) (hfuel : 2 * v.chars.length ≤ fuel) :
    members? (fuel + 1) depth (Utf8.encodeChars (quoteChars k ++ ':' :: v.chars) ++ rest) =
      match skipSpace rest with
      | [] => none
      | b :: r =>
        if b = 0x2C then (members? fuel depth r).map fun (fields, rest) => ((k, v) :: fields, rest)
        else if b = 0x7D then some ([(k, v)], r)
        else none := by
  have hread := ih.value depth v rest h hrest hfuel
  have htext : Utf8.encodeChars (':' :: v.chars) ++ rest = 0x3A :: (Utf8.encodeChars v.chars ++ rest) := by
    rw [Utf8.encodeChars_cons]
    rfl
  rw [Utf8.encodeChars_append, List.append_assoc, htext, encodeChars_quoteChars, members?]
  cases hskip : skipSpace rest <;>
    simp only [skipSpace_cons (show isSpace 0x22 = false from rfl), if_true, string?_quoted,
      skipSpace_cons (show isSpace 0x3A = false from rfl), hread, hskip]

theorem members?_succ {fuel depth : Nat} {k : String} {v : Json} {fields : List (String × Json)}
    {rest : Bytes} (ih : Reads fuel) (h : TidyFields depth ((k, v) :: fields))
    (hfuel : 2 * (quoteChars k ++ ':' :: v.chars ++ fieldsChars fields).length ≤ fuel + 1) :
    members? (fuel + 1) depth
      (Utf8.encodeChars (quoteChars k ++ ':' :: v.chars ++ fieldsChars fields) ++ rest) =
      some ((k, v) :: fields, rest) := by
  rw [List.length_append, List.length_append, List.length_cons] at hfuel
  rw [Utf8.encodeChars_append, List.append_assoc]
  cases fields with
  | nil =>
    have hstops : Stops (0x7D :: rest) := .inr (.inr rfl)
    rw [show Utf8.encodeChars (fieldsChars []) ++ rest = 0x7D :: rest from rfl,
      members?_key ih h.1 hstops (by omega)]
    rfl
  | cons field fields =>
    obtain ⟨k', v'⟩ := field
    have htext : Utf8.encodeChars (fieldsChars ((k', v') :: fields)) ++ rest =
        0x2C :: (Utf8.encodeChars (quoteChars k' ++ ':' :: v'.chars ++ fieldsChars fields) ++ rest) := by
      rw [fieldsChars, List.cons_append, List.cons_append, Utf8.encodeChars_cons]
      rfl
    have hmore := ih.members depth k' v' fields rest h.2 (by
      simp only [fieldsChars, List.length_append, List.length_cons] at hfuel ⊢
      omega)
    have hstops : Stops (0x2C :: (Utf8.encodeChars (quoteChars k' ++ ':' :: v'.chars ++
        fieldsChars fields) ++ rest)) := .inl rfl
    rw [htext, members?_key ih h.1 hstops (by omega)]
    simp only [skipSpace_cons (show isSpace 0x2C = false from rfl), if_true, hmore]
    rfl

theorem reads (fuel : Nat) : Reads fuel := by
  induction fuel with
  | zero =>
    constructor
    · intro depth j rest h _ hfuel
      obtain ⟨b, r, hhead, _⟩ := exists_head h
      have hlength : j.chars ≠ [] := by
        intro hnil
        rw [hnil] at hhead
        cases hhead
      have := List.length_pos_iff.mpr hlength
      omega
    · intro depth x xs rest h hfuel
      cases xs <;> simp [itemsChars] at hfuel
    · intro depth k v fields rest h hfuel
      simp at hfuel
  | succ fuel ih =>
    exact ⟨fun _ _ _ h hrest hfuel => value?_succ ih h hrest hfuel,
      fun _ _ _ _ h hfuel => items?_succ ih h hfuel, fun _ _ _ _ _ h hfuel => members?_succ ih h hfuel⟩

/-- A tidy document is read back from its text. -/
theorem parse?_bytes {j : Json} (h : Tidy maxDepth j) : parse? j.bytes = some j := by
  have hlength := Utf8.length_le_encodeChars j.chars
  have hread := (reads (2 * j.bytes.length + 2)).value maxDepth j [] h trivial (by
    change 2 * j.chars.length ≤ 2 * (Utf8.encodeChars j.chars).length + 2
    omega)
  rw [List.append_nil] at hread
  unfold parse?
  rw [show value? (2 * j.bytes.length + 2) maxDepth j.bytes = some (j, []) from hread]
  rfl

theorem ofText?_text {j : Json} (h : Tidy maxDepth j) : ofText? j.text = some j := by
  rw [ofText?, text, Utf8.encode, String.toList_ofList]
  exact parse?_bytes h

end Json

end ChainFollower
