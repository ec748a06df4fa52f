import ChainFollower.Proofs.Hash
import ChainFollower.Proofs.Text.Names

namespace ChainFollower

namespace Hex

/-- The code of a hexadecimal digit of either case. -/
def IsDigit (code : UInt8) : Prop := Char.ofNat code.toNat ∈ "0123456789abcdefABCDEF".toList

instance (code : UInt8) : Decidable (IsDigit code) := inferInstanceAs (Decidable (_ ∈ _))

variable {a b code : UInt8} {codes bytes : Bytes} {index m n : Nat}

theorem forall_byte {P : UInt8 → Prop} (h : ∀ n < 256, P (UInt8.ofNat n)) (code : UInt8) : P code := by
  have hcode := h code.toNat code.toNat_lt
  rwa [UInt8.ofNat_toNat] at hcode

theorem isSome_value? (code : UInt8) : (value? code).isSome = decide (IsDigit code) :=
  forall_byte (P := fun code => (value? code).isSome = decide (IsDigit code)) (by decide +kernel) code

theorem isDigit_of_value? (h : value? code = some n) : IsDigit code := by
  have hsome := isSome_value? code
  rw [h] at hsome
  exact of_decide_eq_true hsome.symm

theorem not_isDigit_of_value? (h : value? code = none) : ¬IsDigit code := by
  have hnone := isSome_value? code
  rw [h] at hnone
  exact of_decide_eq_false hnone.symm

/-- The character of a code in lower case. -/
def lowered (code : UInt8) : Char := (Char.ofNat code.toNat).toLower

/-- The lower-case digit of a value is the one that was read. -/
theorem digit_of_value? (h : value? code = some n) : n < 16 ∧ digit n = lowered code := by
  have hall : ∀ code, ∀ n ∈ value? code, n < 16 ∧ digit n = lowered code :=
    forall_byte (by decide +kernel)
  exact hall code n h

theorem lt_of_isDigit (h : IsDigit code) : code < 0x80 := by
  have hall : ∀ code, IsDigit code → code < 0x80 := forall_byte (by decide +kernel)
  exact hall code h

theorem digit_lt_iff (hm : m < 16) (hn : n < 16) : digit m < digit n ↔ m < n := by
  have hall : ∀ m < 16, ∀ n < 16, digit m < digit n ↔ m < n := by decide
  exact hall m hm n hn

theorem idxOf_digit (h : n < 16) : "0123456789abcdef".toList.idxOf (digit n) = n := by
  have hall : ∀ n < 16, "0123456789abcdef".toList.idxOf (digit n) = n := by decide
  exact hall n h

theorem digit_eq_iff (hm : m < 16) (hn : n < 16) : digit m = digit n ↔ m = n := by
  constructor
  · intro h
    rw [← idxOf_digit hm, h, idxOf_digit hn]
  · rintro rfl
    rfl

theorem digit_mem (h : n < 16) : digit n ∈ "0123456789abcdef".toList := by
  rw [← List.idxOf_lt_length_iff, idxOf_digit h]
  exact h

/-- The first code that is no digit. -/
structure FirstFault (codes : Bytes) (index : Nat) (code : UInt8) : Prop where
  found : codes[index]? = some code
  fault : ¬IsDigit code
  before : ∀ j < index, ∀ c, codes[j]? = some c → IsDigit c

theorem FirstFault.head (h : ¬IsDigit a) : FirstFault (a :: codes) 0 a where
  found := rfl
  fault := h
  before j hj := absurd hj (Nat.not_lt_zero j)

theorem FirstFault.cons (ha : IsDigit a) (h : FirstFault codes index code) :
    FirstFault (a :: codes) (index + 1) code where
  found := h.found
  fault := h.fault
  before := by
    intro j hj c hc
    cases j with
    | zero =>
      cases hc
      exact ha
    | succ j => exact h.before j (Nat.lt_of_succ_lt_succ hj) c hc

theorem FirstFault.not_all (h : FirstFault codes index code) : ¬∀ c ∈ codes, IsDigit c :=
  fun hall => h.fault (hall code (List.mem_of_getElem? h.found))

theorem FirstFault.unique {j k : Nat} (ha : FirstFault codes j a) (hb : FirstFault codes k b) :
    j = k ∧ a = b := by
  have hjk : j = k := by
    rcases Nat.lt_trichotomy j k with hlt | heq | hlt
    · exact absurd (hb.before j hlt a ha.found) ha.fault
    · exact heq
    · exact absurd (ha.before k hlt b hb.found) hb.fault
  subst hjk
  exact ⟨rfl, Option.some.inj (ha.found.symm.trans hb.found)⟩

/-- A text of ASCII characters has their codes. -/
theorem toList_of_encode {text : String} (h : ∀ code ∈ Utf8.encode text, code < 0x80) :
    text.toList = (Utf8.encode text).map fun code => Char.ofNat code.toNat := by
  have hcodes : ∀ codes : Bytes, (∀ code ∈ codes, code < 0x80) →
      Utf8.encodeChars (codes.map fun code => Char.ofNat code.toNat) = codes := by
    intro codes
    induction codes with
    | nil => exact fun _ => rfl
    | cons c rest ih =>
      intro hall
      have hc := Utf8.encodeChar_one (hall c List.mem_cons_self)
      have hrest := ih fun d hd => hall d (List.mem_cons_of_mem c hd)
      rw [Utf8.encodeChars, List.map_cons, List.flatMap_cons, hc]
      exact congrArg (c :: ·) hrest
  have htext := hcodes (Utf8.encode text) h
  have heq : String.ofList ((Utf8.encode text).map fun code => Char.ofNat code.toNat) = text := by
    apply Utf8.encode_injective
    rw [Utf8.encode, String.toList_ofList]
    exact htext
  rw [← String.toList_ofList (l := (Utf8.encode text).map fun code => Char.ofNat code.toNat), heq]

end Hex

namespace Hash

open Hex (IsDigit FirstFault lowered)

variable {a b codes bytes : Bytes} {i : Nat} {text : String} {h : Hash} {e : ParseError}

/-- The pairs that are read are written as the digits that they were read from, in lower case. -/
theorem digits_of_pairs (hp : pairs i codes = .ok bytes) :
    (∀ code ∈ codes, IsDigit code) ∧ bytes.flatMap Hex.ofByte = codes.map lowered := by
  fun_induction pairs i codes generalizing bytes with
  | case1 =>
    cases hp
    exact ⟨by simp, rfl⟩
  | case2 => cases hp
  | case3 => cases hp
  | case4 => cases hp
  | case5 i a b r high hhigh low hlow ih =>
    cases hr : pairs (i + 2) r with
    | error e =>
      rw [hr] at hp
      cases hp
    | ok rest =>
      rw [hr] at hp
      cases hp
      obtain ⟨hdigits, hlowered⟩ := ih hr
      obtain ⟨hhigh', ha⟩ := Hex.digit_of_value? hhigh
      obtain ⟨hlow', hb⟩ := Hex.digit_of_value? hlow
      refine ⟨?_, ?_⟩
      · rintro code (_ | ⟨_, _ | ⟨_, hcode⟩⟩)
        · exact Hex.isDigit_of_value? hhigh
        · exact Hex.isDigit_of_value? hlow
        · exact hdigits code hcode
      · have hbyte : (UInt8.ofNat (16 * high + low)).toNat = 16 * high + low :=
          Utf8.toNat_byte (by omega)
        have hhalves : (16 * high + low) / 16 = high ∧ (16 * high + low) % 16 = low := by omega
        rw [List.flatMap_cons, hlowered, Hex.ofByte, hbyte, hhalves.1, hhalves.2, ha, hb]
        rfl

/-- Of an even number of codes, the first one that is no digit is reported. -/
theorem firstFault_of_pairs (hp : pairs i codes = .error e) (heven : codes.length % 2 = 0) :
    ∃ j code, FirstFault codes j code ∧ e = .digit code (i + j) := by
  fun_induction pairs i codes with
  | case1 => cases hp
  | case2 => simp at heven
  | case3 i a b r hnone =>
    cases hp
    exact ⟨0, a, .head (Hex.not_isDigit_of_value? hnone), rfl⟩
  | case4 i a b r high hhigh hnone =>
    cases hp
    have ha := Hex.isDigit_of_value? hhigh
    exact ⟨1, b, .cons ha (.head (Hex.not_isDigit_of_value? hnone)), rfl⟩
  | case5 i a b r high hhigh low hlow ih =>
    have ha := Hex.isDigit_of_value? hhigh
    have hb := Hex.isDigit_of_value? hlow
    cases hr : pairs (i + 2) r with
    | ok rest =>
      rw [hr] at hp
      cases hp
    | error e' =>
      rw [hr] at hp
      cases hp
      have hlength : r.length % 2 = 0 := by
        simp only [List.length_cons] at heven
        omega
      obtain ⟨j, code, hfault, rfl⟩ := ih hr hlength
      exact ⟨j + 2, code, .cons ha (.cons hb hfault), by rw [Nat.add_assoc, Nat.add_comm 2 j]⟩

theorem ofHex_of_length (hl : (Utf8.encode text).length ≠ 64) :
    ofHex text = .error (.length (Utf8.encode text).length) := by
  rw [ofHex, dif_neg hl]

theorem pairs_of_ofHex_ok (ho : ofHex text = .ok h) :
    (Utf8.encode text).length = 64 ∧ pairs 0 (Utf8.encode text) = .ok h.bytes := by
  unfold ofHex at ho
  simp only at ho
  split at ho
  · next hl =>
    split at ho
    · cases ho
    · next bytes hp =>
      cases ho
      exact ⟨hl, hp⟩
  · cases ho

theorem pairs_of_ofHex_error (ho : ofHex text = .error e) (hl : (Utf8.encode text).length = 64) :
    pairs 0 (Utf8.encode text) = .error e := by
  rw [ofHex, dif_pos hl] at ho
  split at ho
  · next e' hp =>
    cases ho
    exact hp
  · cases ho

theorem firstFault_of_ofHex (ho : ofHex text = .error e) (hl : (Utf8.encode text).length = 64) :
    ∃ j code, FirstFault (Utf8.encode text) j code ∧ e = .digit code j := by
  have heven : (Utf8.encode text).length % 2 = 0 := by rw [hl]
  obtain ⟨j, code, hfault, rfl⟩ := firstFault_of_pairs (pairs_of_ofHex_error ho hl) heven
  exact ⟨j, code, hfault, by rw [Nat.zero_add]⟩

/-- A text is a hash if it has just 64 digits, and it is that of the hash up to case. -/
theorem ofHex_eq_ok_iff : ofHex text = .ok h ↔ (Utf8.encode text).length = 64 ∧
    (∀ code ∈ Utf8.encode text, IsDigit code) ∧ h.toHex = text.toLower := by
  have hlower : ∀ g, ofHex text = .ok g →
      (∀ code ∈ Utf8.encode text, IsDigit code) ∧ g.toHex = text.toLower := by
    intro g hg
    obtain ⟨hdigits, hlowered⟩ := digits_of_pairs (pairs_of_ofHex_ok hg).2
    refine ⟨hdigits, String.toList_inj.mp ?_⟩
    have htext := Hex.toList_of_encode fun code hcode => Hex.lt_of_isDigit (hdigits code hcode)
    have hcase : text.toLower.toList = text.toList.map Char.toLower := String.toList_map
    rw [toHex, Hex.ofBytes, String.toList_ofList, hlowered, hcase, htext, List.map_map]
    rfl
  constructor
  · intro ho
    exact ⟨(pairs_of_ofHex_ok ho).1, hlower h ho⟩
  · rintro ⟨hl, hdigits, htext⟩
    cases ho : ofHex text with
    | error e =>
      obtain ⟨j, code, hfault, _⟩ := firstFault_of_ofHex ho hl
      exact absurd hdigits hfault.not_all
    | ok g => rw [toHex_injective ((hlower g ho).2.trans htext.symm)]

theorem exists_ofHex_iff : (∃ h, ofHex text = .ok h) ↔
    (Utf8.encode text).length = 64 ∧ ∀ code ∈ Utf8.encode text, IsDigit code := by
  constructor
  · rintro ⟨h, ho⟩
    obtain ⟨hl, hdigits, _⟩ := ofHex_eq_ok_iff.mp ho
    exact ⟨hl, hdigits⟩
  · rintro ⟨hl, hdigits⟩
    cases ho : ofHex text with
    | error e =>
      obtain ⟨j, code, hfault, _⟩ := firstFault_of_ofHex ho hl
      exact absurd hdigits hfault.not_all
    | ok g => exact ⟨g, rfl⟩

theorem ofHex_eq_error_iff : ofHex text = .error e ↔
    ((Utf8.encode text).length ≠ 64 ∧ e = .length (Utf8.encode text).length) ∨
      ((Utf8.encode text).length = 64 ∧
        ∃ j code, FirstFault (Utf8.encode text) j code ∧ e = .digit code j) := by
  by_cases hl : (Utf8.encode text).length = 64
  · simp only [hl, ne_eq, not_true_eq_false, false_and, true_and, false_or]
    constructor
    · exact fun ho => firstFault_of_ofHex ho hl
    · rintro ⟨j, code, hfault, rfl⟩
      cases ho : ofHex text with
      | ok g => exact absurd (ofHex_eq_ok_iff.mp ho).2.1 hfault.not_all
      | error e =>
        obtain ⟨k, d, hfault', rfl⟩ := firstFault_of_ofHex ho hl
        obtain ⟨rfl, rfl⟩ := hfault.unique hfault'
        rfl
  · simp only [ne_eq, hl, not_false_eq_true, true_and, false_and, or_false, ofHex_of_length hl,
      Except.error.injEq]
    exact eq_comm

/-- Two digits are compared as the byte that they denote. -/
theorem ofByte_lt_iff {x y : UInt8} {cs ds : List Char} :
    Hex.ofByte x ++ cs < Hex.ofByte y ++ ds ↔ x < y ∨ x = y ∧ cs < ds := by
  obtain ⟨hx, hx'⟩ := Hex.half_lt x
  obtain ⟨hy, hy'⟩ := Hex.half_lt y
  simp only [Hex.ofByte, List.cons_append, List.nil_append, List.cons_lt_cons_iff]
  rw [Hex.digit_lt_iff hx hy, Hex.digit_lt_iff hx' hy', Hex.digit_eq_iff hx hy, Hex.digit_eq_iff hx' hy',
    UInt8.lt_iff_toNat_lt, ← UInt8.toNat_inj]
  by_cases hrest : cs < ds
  · simp only [hrest, and_true]
    omega
  · simp only [hrest, and_false, or_false]
    omega

theorem flatMap_ofByte_lt_iff : a.flatMap Hex.ofByte < b.flatMap Hex.ofByte ↔ a < b := by
  induction a generalizing b with
  | nil =>
    cases b with
    | nil => simp
    | cons y s => simp [Hex.ofByte]
  | cons x r ih =>
    cases b with
    | nil => simp
    | cons y s => rw [List.flatMap_cons, List.flatMap_cons, ofByte_lt_iff, ih, List.cons_lt_cons_iff]

theorem compare_toHex (g h : Hash) : compare g h = compare g.toHex h.toHex := by
  have hlt : compare g h = .lt ↔ g.toHex < h.toHex := by
    rw [String.lt_iff, toHex, toHex, Hex.ofBytes, Hex.ofBytes, String.toList_ofList, String.toList_ofList]
    exact (compareBytes_lt_iff g.bytes h.bytes).trans flatMap_ofByte_lt_iff.symm
  have heq : compare g h = .eq ↔ g.toHex = h.toHex := by
    constructor
    · intro hc
      have hbytes := (compareBytes_eq_iff g.bytes h.bytes).mp hc
      rw [toHex, toHex, hbytes]
    · intro htext
      rw [toHex_injective htext]
      exact (compareBytes_eq_iff h.bytes h.bytes).mpr rfl
  show compare g h = compareOfLessAndEq g.toHex h.toHex
  unfold compareOfLessAndEq
  cases hc : compare g h with
  | lt => rw [if_pos (hlt.mp hc)]
  | eq =>
    have hsame := heq.mp hc
    rw [hsame, if_neg (String.lt_irrefl _), if_pos rfl]
  | gt =>
    have hnot : ¬g.toHex < h.toHex := fun h => by
      rw [hlt.mpr h] at hc
      cases hc
    have hne : g.toHex ≠ h.toHex := fun h => by
      rw [heq.mpr h] at hc
      cases hc
    rw [if_neg hnot, if_neg hne]

theorem toList_toHex (h : Hash) : h.toHex.toList = h.bytes.flatMap Hex.ofByte := by
  rw [toHex, Hex.ofBytes, String.toList_ofList]

theorem length_ofBytes (bytes : Bytes) : (bytes.flatMap Hex.ofByte).length = 2 * bytes.length := by
  induction bytes with
  | nil => rfl
  | cons x r ih =>
    rw [List.flatMap_cons, List.length_append, ih, Hex.ofByte]
    simp only [List.length_cons, List.length_nil]
    omega

theorem mem_toHex {h : Hash} {c : Char} (hc : c ∈ h.toHex.toList) :
    c ∈ "0123456789abcdef".toList := by
  rw [toList_toHex, List.mem_flatMap] at hc
  obtain ⟨x, _, hc⟩ := hc
  obtain ⟨hhigh, hlow⟩ := Hex.half_lt x
  simp only [Hex.ofByte, List.mem_cons, List.not_mem_nil, or_false] at hc
  rcases hc with rfl | rfl
  · exact Hex.digit_mem hhigh
  · exact Hex.digit_mem hlow

/-- The first two digits are those of the first byte. -/
theorem head_toHex (h : Hash) : ∃ first bytes high low cs, h.bytes = first :: bytes ∧
    h.toHex.toList = high :: low :: cs ∧
    16 * "0123456789abcdef".toList.idxOf high + "0123456789abcdef".toList.idxOf low = first.toNat := by
  have hlength := h.length_bytes
  cases hb : h.bytes with
  | nil =>
    rw [hb] at hlength
    cases hlength
  | cons first bytes =>
    obtain ⟨hhigh, hlow⟩ := Hex.half_lt first
    refine ⟨first, bytes, Hex.digit (first.toNat / 16), Hex.digit (first.toNat % 16),
      bytes.flatMap Hex.ofByte, rfl, ?_, ?_⟩
    · rw [toList_toHex, hb]
      rfl
    · rw [Hex.idxOf_digit hhigh, Hex.idxOf_digit hlow]
      omega

/-- The texts of hashes are just the texts of 64 hexadecimal digits, read in either case and written in
lower case; of any other text the length is reported, or else the first code that is no digit, where it
stands and as a character. Hashes are ordered as their texts. -/
theorem texts_exact_and_ordered :
    (∀ text, (∃ h, ofHex text = .ok h) ↔
      (Utf8.encode text).length = 64 ∧ ∀ code ∈ Utf8.encode text, IsDigit code) ∧
    (∀ text h, ofHex text = .ok h → h.toHex = text.toLower) ∧
    (∀ text e, ofHex text = .error e ↔
      ((Utf8.encode text).length ≠ 64 ∧ e = .length (Utf8.encode text).length) ∨
        ((Utf8.encode text).length = 64 ∧
          ∃ j code, FirstFault (Utf8.encode text) j code ∧ e = .digit code j)) ∧
    (∀ code j, ∃ character : Char, character.toNat = code.toNat ∧
      (ParseError.digit code j).message =
        "invalid hex character " ++ Quoted.char character ++ " at position " ++ toString j) ∧
    (∀ h, ofHex h.toHex = .ok h ∧ h.toHex.length = 64 ∧
      (∀ c ∈ h.toHex.toList, c ∈ "0123456789abcdef".toList) ∧
      ∃ first bytes high low cs, h.bytes = first :: bytes ∧ h.toHex.toList = high :: low :: cs ∧
        16 * "0123456789abcdef".toList.idxOf high + "0123456789abcdef".toList.idxOf low = first.toNat) ∧
    ∀ g h : Hash, compare g h = compare g.toHex h.toHex := by
  refine ⟨fun text => exists_ofHex_iff, fun text h ho => (ofHex_eq_ok_iff.mp ho).2.2,
    fun text e => ofHex_eq_error_iff, ?_, ?_, compare_toHex⟩
  · intro code j
    have hvalid : code.toNat.isValidChar := .inl (Nat.lt_trans code.toNat_lt (by decide))
    refine ⟨Char.ofNat code.toNat, ?_, rfl⟩
    rw [Char.ofNat, dif_pos hvalid]
    rfl
  · intro h
    refine ⟨ofHex_toHex h, ?_, fun c hc => mem_toHex hc, head_toHex h⟩
    rw [← String.length_toList, toList_toHex, length_ofBytes, h.length_bytes]

/-- Upper-case digits are read, and written in lower case. -/
theorem texts_exact_and_ordered_upper :
    let text := "AB0000000000000000000000000000000000000000000000000000000000CDEF"
    ∃ h, ofHex text = .ok h ∧
      h.toHex = "ab0000000000000000000000000000000000000000000000000000000000cdef" := by
  intro text
  obtain ⟨hexists, hlower, _⟩ := texts_exact_and_ordered
  obtain ⟨h, ho⟩ := (hexists text).mpr ⟨by decide +kernel, by decide +kernel⟩
  have htext : text.toLower = "ab0000000000000000000000000000000000000000000000000000000000cdef" := by
    decide +kernel
  exact ⟨h, ho, (hlower text h ho).trans htext⟩

end Hash

end ChainFollower
