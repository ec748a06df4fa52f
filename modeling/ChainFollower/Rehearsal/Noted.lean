import ChainFollower.Sync.Follower

namespace ChainFollower

/-- The height a payload gives for its block, as it stands there. -/
def heightText (block : Json) : String :=
  match (block.field? "block").bind (Json.field? "height") with
  | some height => height.text
  | none => "null"

def Request.line : Request → String
  | .chain .info => "info"
  | .chain (.hashAt height) => "hash " ++ toString height
  | .chain (.block game hash) => "data " ++ game ++ " " ++ Hex.ofBytes (hash.bytes.take 4)
  | .load => "load"
  | .commit c => "commit " ++ toString c.tip.height ++ (if c.undo.isSome then " undo" else "")
  | .undo tip => "undo " ++ toString tip.height
  | .prune below => "prune " ++ toString below
  | .initial network => "initial " ++ network.name
  | .forward network _ block => "forward " ++ network.name ++ " " ++ heightText block
  | .backward network _ block _ => "backward " ++ network.name ++ " " ++ heightText block

variable {σ : Type}

def Source.noted (note : Request → σ → σ) (source : Source σ) : Source σ where
  answer q s := source.answer q (note (.chain q) s)

def Game.noted (note : Request → σ → σ) (game : Game σ) : Game σ where
  names := game.names
  initial network s := game.initial network (note (.initial network) s)
  forward network state block s :=
    game.forward network state block (note (.forward network state block) s)
  backward network state block undo s :=
    game.backward network state block undo (note (.backward network state block undo) s)

end ChainFollower
