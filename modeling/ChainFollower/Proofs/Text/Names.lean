import ChainFollower.Hash
import ChainFollower.Text.Decimal
import ChainFollower.Proofs.Text.Utf8

namespace ChainFollower

namespace Decimal

theorem digit?_of_isDigit {c : Char} (h : c.isDigit) : digit? c = some (c.toNat - 48) := by
  rw [Char.isDigit_iff_toNat] at h
  rw [digit?, if_pos]
  exact h

theorem valueFrom_of_isDigit {cs : List Char} (h : ∀ c ∈ cs, c.isDigit) (n : Nat) :
    valueFrom n cs = some (Nat.ofDigitChars 10 cs n) := by
  induction cs generalizing n with
  | nil => rw [valueFrom, Nat.ofDigitChars_nil]
  | cons c cs ih =>
    have hc : c.isDigit := h c List.mem_cons_self
    rw [valueFrom, digit?_of_isDigit hc, Option.bind_some, Nat.ofDigitChars_cons]
    exact ih (fun d hd => h d (List.mem_cons_of_mem c hd)) _

theorem isDigit_of_mem {n : Nat} {c : Char} (h : c ∈ Nat.toDigits 10 n) : c.isDigit :=
  Nat.isDigit_of_mem_toDigits (by decide) (by decide) h

theorem digits?_toDigits (n : Nat) : digits? (Nat.toDigits 10 n) = some n := by
  have hvalue : valueFrom 0 (Nat.toDigits 10 n) = some n := by
    rw [valueFrom_of_isDigit fun c hc => isDigit_of_mem hc, Nat.ofDigitChars_ten_toDigits]
  unfold digits?
  split
  · next h => exact absurd h Nat.toDigits_ne_nil
  · exact hvalue

theorem unsigned?_repr {n bound : Nat} (h : n < bound) : unsigned? bound n.repr = some n := by
  unfold unsigned?
  rw [Nat.toList_repr]
  split
  · next r hr =>
    have hplus : '+'.isDigit := isDigit_of_mem (n := n) (hr ▸ List.mem_cons_self)
    exact absurd hplus (by decide)
  · rw [digits?_toDigits]
    exact Option.filter_some_pos (by simpa using h)

theorem u64?_toString (n : UInt64) : u64? (toString n) = some n := by
  rw [show toString n = n.toNat.repr from rfl, u64?, unsigned?_repr n.toNat_lt]
  exact congrArg some UInt64.ofNat_toNat

end Decimal

namespace Hex

theorem value?_digit {n : Nat} (h : n < 16) : value? (UInt8.ofNat (digit n).val.toNat) = some n := by
  have hall : ∀ n < 16, value? (UInt8.ofNat (digit n).val.toNat) = some n := by decide
  exact hall n h

theorem encodeChar_digit {n : Nat} (h : n < 16) :
    String.utf8EncodeChar (digit n) = [UInt8.ofNat (digit n).val.toNat] := by
  have hall : ∀ n < 16, (digit n).val.toNat ≤ 0x7F := by decide
  simp only [String.utf8EncodeChar, if_pos (hall n h)]

/-- The codes of the two digits of a byte. -/
def codes (b : UInt8) : Bytes :=
  [UInt8.ofNat (digit (b.toNat / 16)).val.toNat, UInt8.ofNat (digit (b.toNat % 16)).val.toNat]

theorem half_lt (b : UInt8) : b.toNat / 16 < 16 ∧ b.toNat % 16 < 16 := by
  have := b.toNat_lt
  omega

theorem encodeChars_ofByte (b : UInt8) : Utf8.encodeChars (ofByte b) = codes b := by
  have h := half_lt b
  simp [Utf8.encodeChars, ofByte, codes, encodeChar_digit h.1, encodeChar_digit h.2]

theorem encode_ofBytes (bytes : Bytes) : Utf8.encode (ofBytes bytes) = bytes.flatMap codes := by
  rw [Utf8.encode, ofBytes, String.toList_ofList]
  induction bytes with
  | nil => rfl
  | cons b r ih =>
    rw [List.flatMap_cons, List.flatMap_cons, ← encodeChars_ofByte b, ← ih]
    exact List.flatMap_append

theorem length_codes (bytes : Bytes) : (bytes.flatMap codes).length = 2 * bytes.length := by
  induction bytes with
  | nil => rfl
  | cons b r ih =>
    rw [List.flatMap_cons, List.length_append, ih, List.length_cons, codes]
    simp only [List.length_cons, List.length_nil]
    omega

end Hex

namespace Hash

theorem pairs_codes (i : Nat) (bytes : Bytes) : pairs i (bytes.flatMap Hex.codes) = .ok bytes := by
  induction bytes generalizing i with
  | nil => rfl
  | cons b r ih =>
    have h := Hex.half_lt b
    have hb : 16 * (b.toNat / 16) + b.toNat % 16 = b.toNat := by omega
    rw [List.flatMap_cons, Hex.codes, List.cons_append, List.cons_append, List.nil_append, pairs]
    simp only [Hex.value?_digit h.1, Hex.value?_digit h.2, ih, hb, Except.map, UInt8.ofNat_toNat]

theorem ofHex_toHex (h : Hash) : ofHex h.toHex = .ok h := by
  have hcodes : Utf8.encode h.toHex = h.bytes.flatMap Hex.codes := Hex.encode_ofBytes h.bytes
  have hlength : (Utf8.encode h.toHex).length = 64 := by
    rw [hcodes, Hex.length_codes, h.length_bytes]
  have hpairs : pairs 0 (Utf8.encode h.toHex) = .ok h.bytes := by rw [hcodes, pairs_codes]
  rw [ofHex, dif_pos hlength]
  split
  · next e he =>
    rw [hpairs] at he
    cases he
  · next bytes he =>
    rw [hpairs] at he
    cases he
    rfl

theorem ofHex?_toHex (h : Hash) : ofHex? h.toHex = some h := by
  rw [ofHex?, ofHex_toHex]
  rfl

theorem toHex_injective {a b : Hash} (h : a.toHex = b.toHex) : a = b := by
  have ha := ofHex?_toHex a
  rw [h, ofHex?_toHex b] at ha
  exact (Option.some.inj ha).symm

end Hash

end ChainFollower
