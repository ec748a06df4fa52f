import ChainFollower.Notify.Topic

namespace ChainFollower

namespace Topic

theorem rest?_append (front rest : List Char) : rest? front (front ++ rest) = some rest := by
  induction front with
  | nil => rfl
  | cons c front ih => rw [List.cons_append, rest?, if_pos rfl, ih]

theorem eq_append_of_rest? {front text rest : List Char} (h : rest? front text = some rest) :
    text = front ++ rest := by
  fun_induction rest? front text with
  | case1 => cases h; rfl
  | case2 => cases h
  | case3 front c text ih => rw [ih h]; rfl
  | case4 => cases h

theorem toList_text (kind : EventKind) (game : String) :
    (text kind game).toList = (head kind).toList ++ game.toList := by
  rw [text, String.toList_append]

theorem rest?_attach_of_detach (game : List Char) :
    rest? (head .attach).toList ((head .detach).toList ++ game) = none := by
  simp [head, rest?]

theorem parse?_text (kind : EventKind) (game : String) : parse? (text kind game) = some (kind, game) := by
  unfold parse?
  rw [toList_text]
  cases kind with
  | attach =>
    rw [List.findSome?_cons, rest?_append]
    simp only [Option.map_some, String.ofList_toList]
  | detach =>
    rw [List.findSome?_cons, rest?_attach_of_detach, List.findSome?_cons, rest?_append]
    simp only [Option.map_some, Option.map_none, String.ofList_toList]

theorem text_of_parse? {topic game : String} {kind : EventKind} (h : parse? topic = some (kind, game)) :
    topic = text kind game := by
  unfold parse? at h
  obtain ⟨_, other, _, _, hother, _⟩ := List.findSome?_eq_some_iff.mp h
  obtain ⟨rest, hrest, heq⟩ := Option.map_eq_some_iff.mp hother
  cases heq
  rw [← String.toList_inj, toList_text, String.toList_ofList]
  exact eq_append_of_rest? hrest

theorem text_injective {kind kind' : EventKind} {game game' : String}
    (h : text kind game = text kind' game') : kind = kind' ∧ game = game' := by
  have hparse := parse?_text kind game
  rw [h, parse?_text] at hparse
  cases hparse
  exact ⟨rfl, rfl⟩

end Topic

end ChainFollower
