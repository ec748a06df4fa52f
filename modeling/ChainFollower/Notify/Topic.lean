import ChainFollower.Block

namespace ChainFollower

namespace Topic

def head : EventKind → String
  | .attach => "game-block-attach json "
  | .detach => "game-block-detach json "

def text (kind : EventKind) (game : String) : String := head kind ++ game

/-- The rest of a text that begins with another. -/
def rest? : List Char → List Char → Option (List Char)
  | [], rest => some rest
  | _ :: _, [] => none
  | c :: front, d :: rest => if c = d then rest? front rest else none

def parse? (topic : String) : Option (EventKind × String) :=
  [EventKind.attach, .detach].findSome? fun kind =>
    (rest? (head kind).toList topic.toList).map fun game => (kind, String.ofList game)

end Topic

end ChainFollower
