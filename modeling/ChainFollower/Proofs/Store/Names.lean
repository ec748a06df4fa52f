import ChainFollower.Store.File
import ChainFollower.Proofs.Text.Names

namespace ChainFollower

namespace FileStore

theorem dropFront?_append (front text : List Char) : dropFront? front (front ++ text) = some text := by
  have h : front.isPrefixOf (front ++ text) = true := by
    rw [List.isPrefixOf_iff_prefix]
    exact List.prefix_append front text
  rw [dropFront?, if_pos h, List.drop_left]

theorem dropBack?_append (text back : List Char) : dropBack? back (text ++ back) = some text := by
  have h : back.isSuffixOf (text ++ back) = true := by
    rw [List.isSuffixOf_iff_suffix]
    exact List.suffix_append text back
  rw [dropBack?, if_pos h, List.length_append, Nat.add_sub_cancel, List.take_left]

/-- The digits in the name of a record. -/
def digits (tip : Tip) : List Char := Nat.toDigits 10 tip.height.toNat

theorem toList_undoName (tip : Tip) :
    (undoName tip).toList =
      "undo_".toList ++ (digits tip ++ ('_' :: tip.hash.toHex.toList) ++ ".bin".toList) := by
  rw [undoName, show toString tip.height = tip.height.toNat.repr from rfl]
  simp only [String.toList_append, Nat.toList_repr, digits, List.append_assoc, List.cons_append]
  rfl

theorem takeWhile_digits (tip : Tip) (rest : List Char) :
    (digits tip ++ '_' :: rest).takeWhile (· != '_') = digits tip := by
  rw [List.takeWhile_append_of_pos]
  · simp
  · intro c hc
    have hdigit : c.isDigit := Decimal.isDigit_of_mem hc
    rw [bne_iff_ne]
    rintro rfl
    exact absurd hdigit (by decide)

theorem undoHeight?_undoName (tip : Tip) : undoHeight? (undoName tip) = some tip.height := by
  have hheight : String.ofList (digits tip) = toString tip.height := rfl
  have hhash : String.ofList tip.hash.toHex.toList = tip.hash.toHex := String.ofList_toList
  rw [undoHeight?, toList_undoName, dropFront?_append]
  simp only [Option.bind_eq_bind, Option.bind_some, dropBack?_append, takeWhile_digits,
    List.drop_left]
  rw [show '_' :: tip.hash.toHex.toList = ['_'] ++ tip.hash.toHex.toList from rfl, dropFront?_append]
  simp only [Option.bind_some, hhash, Hash.ofHex?_toHex, hheight, Decimal.u64?_toString]

theorem undoName_injective {a b : Tip} (h : undoName a = undoName b) : a = b := by
  have hheight : a.height = b.height := by
    have ha := undoHeight?_undoName a
    rw [h, undoHeight?_undoName b] at ha
    exact (Option.some.inj ha).symm
  have htext := congrArg String.toList h
  rw [toList_undoName, toList_undoName, digits, digits, hheight] at htext
  have hhex : a.hash.toHex.toList = b.hash.toHex.toList := by simpa using htext
  have hhash : a.hash = b.hash := Hash.toHex_injective (String.toList_inj.mp hhex)
  obtain ⟨height, hash⟩ := a
  obtain rfl := hheight
  obtain rfl := hhash
  rfl

theorem eq_append_of_dropFront? {front text rest : List Char} (h : dropFront? front text = some rest) :
    text = front ++ rest := by
  unfold dropFront? at h
  split at h
  · next hfront =>
    cases h
    exact (List.prefix_iff_eq_append.mp (List.isPrefixOf_iff_prefix.mp hfront)).symm
  · cases h

theorem suffix_of_dropBack? {back text rest : List Char} (h : dropBack? back text = some rest) :
    back <:+ text := by
  unfold dropBack? at h
  split at h
  · next hback => exact List.isSuffixOf_iff_suffix.mp hback
  · cases h

theorem suffix_of_undoHeight? {name : String} {height : UInt64} (h : undoHeight? name = some height) :
    ".bin".toList <:+ name.toList := by
  unfold undoHeight? at h
  simp only [Option.bind_eq_bind, Option.bind_eq_some_iff] at h
  obtain ⟨rest, hfront, back, hback, _⟩ := h
  rw [eq_append_of_dropFront? hfront]
  exact (suffix_of_dropBack? hback).trans (List.suffix_append _ rest)

theorem undoHeight?_tmp (name : String) : undoHeight? (name ++ ".tmp") = none := by
  cases h : undoHeight? (name ++ ".tmp") with
  | none => rfl
  | some height =>
    obtain ⟨front, hfront⟩ := suffix_of_undoHeight? h
    rw [String.toList_append] at hfront
    have hends : ".bin".toList = ".tmp".toList := (List.append_inj' hfront rfl).2
    exact absurd hends (by decide)

end FileStore

end ChainFollower
